/-! Byte sinks.

A `Sink` is a writer with its future laid down. The next calls are answered by `replies`, one after the
other: each of them says how many bytes are accepted and which failure is reported, be it together with a
call that is accepted whole. The calls after these are answered by rule: how many bytes the sink accepts in
all, and whether it says so when it does not accept everything it is offered. The call number `cancelAt`,
counted from one, cancels the running turn. -/
namespace TapeMachine

/-- How a sink answers a call. -/
structure Sink.Reply where
  /-- The number of bytes accepted, if so many are offered. -/
  taken : Nat
  /-- The failure reported. -/
  failure : Option String := none
  deriving DecidableEq, Repr

structure Sink where
  /-- What the next calls are answered. -/
  replies : List Sink.Reply := []
  /-- The number of bytes accepted in all; `none` is no limit. -/
  limit : Option Nat := none
  /-- Whether a write that is cut short reports no failure. -/
  short : Bool := false
  /-- The text of the failure. -/
  failure : String := "broken pipe"
  /-- The number of the call that cancels the turn; zero is none. -/
  cancelAt : Nat := 0
  /-- The bytes accepted so far. -/
  delivered : Array UInt8 := #[]
  /-- For every call, how many bytes were offered and how many accepted. -/
  writes : Array (Nat × Nat) := #[]
  /-- The failures reported so far. -/
  failures : List String := []
  deriving DecidableEq, Repr

namespace Sink

/-- How many of `n` bytes the sink accepts now. -/
def accepts (s : Sink) (n : Nat) : Nat :=
  match s.replies, s.limit with
  | reply :: _, _ => min n reply.taken
  | [], none => n
  | [], some limit => min n (limit - s.delivered.size)

/-- The failure that the sink reports now if it is offered `n` bytes. -/
def reports (s : Sink) (n : Nat) : Option String :=
  match s.replies with
  | reply :: _ => reply.failure
  | [] => if s.accepts n < n && !s.short then some s.failure else none

/-- Offers `bytes`. Gives the failure reported, if any, and the sink after the call. -/
def write (s : Sink) (bytes : Array UInt8) : Option String × Sink :=
  let n := s.accepts bytes.size
  let failure := s.reports bytes.size
  (failure,
    { s with
      replies := s.replies.tail
      delivered := s.delivered ++ bytes.extract 0 n
      writes := s.writes.push (bytes.size, n)
      failures := s.failures ++ failure.toList })

/-- Whether one of the calls after the first `calls` has cancelled the turn. -/
def hasCancelledSince (s : Sink) (calls : Nat) : Bool :=
  calls < s.cancelAt && s.cancelAt ≤ s.writes.size

end Sink
end TapeMachine
