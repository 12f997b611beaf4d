import TapeMachine.Stream.Sink

/-! Buffered output.

An `Outbox` collects bytes and offers them to its sink when it is full or flushed. Once a write has
failed or was cut short the outbox is closed: it keeps the failure, and no further call reaches the
sink. -/
namespace TapeMachine

structure Outbox where
  /-- Where the bytes go; without a sink they are dropped. -/
  sink : Option Sink := none
  buffer : Array UInt8 := #[]
  failure : Option String := none
  deriving DecidableEq, Repr

namespace Outbox

/-- The size of the buffer. -/
def capacity : Nat := 4096

/-- The failure kept for a write that was cut short without saying so. -/
def shortWrite : String := "short write"

/-- Offers a nonempty buffer to the sink. -/
def deliver (o : Outbox) : Outbox :=
  match o with
  | ⟨none, _, failure⟩ => ⟨none, #[], failure⟩
  | ⟨some sink, buffer, _⟩ =>
    let n := sink.accepts buffer.size
    let (failure, sink) := sink.write buffer
    if n < buffer.size then
      { sink := some sink
        buffer := buffer.extract n buffer.size
        failure := some (failure.getD shortWrite) }
    else { sink := some sink, buffer := #[], failure := failure }

/-- Sends what is collected. The outbox has a failure afterwards exactly if flushing failed. -/
def flush (o : Outbox) : Outbox :=
  if o.failure.isSome || o.buffer.isEmpty then o else o.deliver

/-- Collects one byte, making room first. The outbox has a failure afterwards exactly if the byte was
not taken. -/
def put (o : Outbox) (b : UInt8) : Outbox :=
  if o.failure.isSome then o
  else
    let o := if capacity ≤ o.buffer.size then o.flush else o
    if o.failure.isSome then o else { o with buffer := o.buffer.push b }

/-- The number of calls made on the sink. -/
def calls (o : Outbox) : Nat := (o.sink.map (·.writes.size)).getD 0

/-- Whether one of the calls after the first `calls` has cancelled the turn. -/
def hasCancelledSince (o : Outbox) (calls : Nat) : Bool :=
  (o.sink.map (·.hasCancelledSince calls)).getD false

end Outbox
end TapeMachine
