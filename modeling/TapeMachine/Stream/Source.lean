import TapeMachine.Fault

/-! Byte sources.

A `Source` is a reader with its future laid down: the bytes it will deliver, how many at a time, how
many empty reads come before each real one, and the ending that it reports for ever once the bytes
are used up. A read may also cancel the running turn: the call number `cancelAt`, counted from one,
does. -/
namespace TapeMachine

/-- How a source spreads its bytes over its reads. Both functions are given the number of real reads
made before. -/
structure Pacing where
  /-- The most bytes a real read delivers; zero is no limit. -/
  chunk : Nat → Nat := fun _ => 0
  /-- The number of empty reads before a real one. -/
  gap : Nat → Nat := fun _ => 0

structure Source where
  /-- The bytes not delivered yet. -/
  data : List UInt8
  pacing : Pacing := {}
  /-- Whether the ending comes with the last bytes or only after them. -/
  endsWithData : Bool := false
  ending : Fault := .bare .endOfInput
  /-- The number of the call that cancels the turn; zero is none. -/
  cancelAt : Nat := 0
  /-- The number of calls so far. -/
  calls : Nat := 0
  /-- The number of real reads so far. -/
  served : Nat := 0
  /-- The number of empty reads before the next real one. -/
  idle : Nat := pacing.gap 0

/-- What a read gives back. -/
structure Delivery where
  bytes : List UInt8
  ending : Option Fault
  source : Source

namespace Source

/-- How many bytes the next real read delivers into a space of `room` bytes, if that many are left. -/
def portion (s : Source) (room : Nat) : Nat :=
  let chunk := s.pacing.chunk s.served
  if chunk = 0 then room else min room chunk

/-- A read that is not empty: bytes, or the ending, or both. -/
def serve (s : Source) (room : Nat) : Delivery :=
  let after : Source :=
    { s with
      data := s.data.drop (s.portion room)
      calls := s.calls + 1
      served := s.served + 1
      idle := s.pacing.gap (s.served + 1) }
  if s.data.isEmpty then ⟨[], some s.ending, after⟩
  else
    ⟨s.data.take (s.portion room),
      if s.endsWithData && after.data.isEmpty then some s.ending else none, after⟩

/-- One call with a space of `room` bytes. -/
def read (s : Source) (room : Nat) : Delivery :=
  match s.idle with
  | n + 1 => ⟨[], none, { s with calls := s.calls + 1, idle := n }⟩
  | 0 => s.serve room

/-- Whether one of the calls after the first `calls` has cancelled the turn. -/
def hasCancelledSince (s : Source) (calls : Nat) : Bool := calls < s.cancelAt && s.cancelAt ≤ s.calls

/-- The source once its pending empty reads are made: such a read changes the counters only. -/
def skipIdle (s : Source) : Source := { s with calls := s.calls + s.idle, idle := 0 }

/-- Reads one byte, waiting through the empty reads. A byte that comes with the ending counts, and
the ending is then left for the next read. -/
def readByte (s : Source) : Except Fault UInt8 × Source :=
  let d := s.skipIdle.serve 1
  match d.bytes with
  | b :: _ => (.ok b, d.source)
  | [] => (.error (d.ending.getD s.ending), d.source)

/-- Reads once into a space of one byte. An empty read that reports no ending counts as a zero. -/
def readOnce (s : Source) : Except Fault UInt8 × Source :=
  let d := s.read 1
  match d.bytes, d.ending with
  | b :: _, _ => (.ok b, d.source)
  | [], some fault => (.error fault, d.source)
  | [], none => (.ok 0, d.source)

/-- Reads to the ending in at most `fuel` real reads. The space has `room` bytes, of which `used` are
taken, and grows by a quarter and a little whenever it is full. -/
def readRest : Nat → Nat → Nat → Array UInt8 → Source → Array UInt8 × Fault × Source
  | 0, _, _, taken, s => (taken, s.ending, s)
  | fuel + 1, room, used, taken, s =>
    let d := s.skipIdle.serve (room - used)
    let used := used + d.bytes.length
    let taken := taken.appendList d.bytes
    match d.ending with
    | some fault => (taken, fault, d.source)
    | none =>
      readRest fuel (if used = room then room + (room + 768) / 4 else room) used taken d.source

/-- Reads everything. The plain end of the input is the only ending that makes a whole; with any
other, what was read is dropped. -/
def readAll (s : Source) : Except Fault (Array UInt8) × Source :=
  let (taken, fault, s) := readRest (s.data.length + 1) 512 0 #[] s
  (if fault = .bare .endOfInput then .ok taken else .error fault, s)

end Source
end TapeMachine
