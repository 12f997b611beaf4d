import TapeMachine.Stream.Feed

/-! Where the input instruction takes its bytes from. -/
namespace TapeMachine

inductive Input
  /-- No source at all: always at the end. -/
  | absent
  /-- A source that is read byte by byte, waiting through empty reads. -/
  | plain (source : Source)
  /-- A source that hands out bytes by itself, one call each. -/
  | single (source : Source)
  /-- A buffered source. -/
  | buffered (feed : Feed)

namespace Input

def source? : Input → Option Source
  | .absent => none
  | .plain source => some source
  | .single source => some source
  | .buffered feed => some feed.source

/-- The number of calls made on the source. -/
def calls (i : Input) : Nat := (i.source?.map (·.calls)).getD 0

/-- Whether one of the calls after the first `calls` has cancelled the turn. -/
def hasCancelledSince (i : Input) (calls : Nat) : Bool :=
  (i.source?.map (·.hasCancelledSince calls)).getD false

/-- Takes one byte. -/
def readByte : Input → Except Fault UInt8 × Input
  | .absent => (.error (.bare .endOfInput), .absent)
  | .plain source =>
    let (answer, source) := source.readByte
    (answer, .plain source)
  | .single source =>
    let (answer, source) := source.readOnce
    (answer, .single source)
  | .buffered feed =>
    let (answer, feed) := feed.readByte
    (answer, .buffered feed)

/-- Replaces the source, keeping the way it is read. -/
def withSource (i : Input) (source : Source) : Input :=
  match i with
  | .absent => .absent
  | .plain _ => .plain source
  | .single _ => .single source
  | .buffered feed => .buffered { feed with source }

/-- Takes everything that is left. -/
def readAll (i : Input) : Except Fault (Array UInt8) × Input :=
  match i.source? with
  | none => (.ok #[], i)
  | some source =>
    let (answer, source) := source.readAll
    (answer, i.withSource source)

/-- The same input, read through a buffer. -/
def buffer (i : Input) : Input :=
  match i with
  | .absent => .buffered { source := { data := [] } }
  | .plain source | .single source => .buffered { source }
  | .buffered feed => .buffered feed

end Input
end TapeMachine
