import TapeMachine.Stream.Source

/-! Buffered sources.

A `Feed` reads its source in large pieces and hands the bytes out one by one or line by line. An
ending that comes with bytes waits until they are used up; it is reported once and then asked for
again. A source that keeps delivering nothing is given up after a hundred reads in a row. -/
namespace TapeMachine

structure Feed where
  source : Source
  /-- The bytes read and not handed out yet. -/
  buffer : List UInt8 := []
  /-- The ending that waits behind the buffer. -/
  fault : Option Fault := none

namespace Feed

/-- The size of the buffer. -/
def capacity : Nat := 4096

/-- How many reads in a row may deliver nothing. -/
def patience : Nat := 100

/-- What is reported when patience is used up. -/
def noProgress : Fault := .told "multiple Read calls return no data or error"

/-- Reads until something comes, at most `n` times. -/
def fillWithin : Nat → Feed → Feed
  | 0, f => { f with fault := some noProgress }
  | n + 1, f =>
    let d := f.source.read (capacity - f.buffer.length)
    match d.ending, d.bytes with
    | some fault, bytes => ⟨d.source, f.buffer ++ bytes, some fault⟩
    | none, [] => fillWithin n { f with source := d.source }
    | none, bytes => { f with source := d.source, buffer := f.buffer ++ bytes }

def fill (f : Feed) : Feed := fillWithin patience f

/-- Reports the waiting ending, which is then forgotten. -/
def report (f : Feed) : Fault × Feed := (f.fault.getD noProgress, { f with fault := none })

/-- Hands out one byte, filling an empty buffer first unless an ending waits. -/
def readByte (f : Feed) : Except Fault UInt8 × Feed :=
  let f := if f.buffer.isEmpty && f.fault.isNone then f.fill else f
  match f.buffer with
  | b :: rest => (.ok b, { f with buffer := rest })
  | [] =>
    let (fault, f) := f.report
    (.error fault, f)

/-- The bytes of `bytes` up to and with the first `mark`, and those after it. -/
def cut? (mark : UInt8) (bytes : List UInt8) : Option (List UInt8 × List UInt8) :=
  match bytes.span (· != mark) with
  | (_, []) => none
  | (before, m :: after) => some (before ++ [m], after)

/-- How a slice of the buffer ends: with the mark, before an ending, or where the buffer ends. -/
inductive SliceEnd
  | marked
  | ended (fault : Fault)
  | full
  deriving DecidableEq, Repr

/-- Hands out the bytes up to and with the next `mark` as far as they fit into the buffer. Every
round reads at least one byte or meets the ending, which bounds the number of rounds. -/
def readSliceWithin (mark : UInt8) : Nat → Feed → List UInt8 × SliceEnd × Feed
  | 0, f => (f.buffer, .ended noProgress, { f with buffer := [] })
  | rounds + 1, f =>
    match cut? mark f.buffer with
    | some (slice, rest) => (slice, .marked, { f with buffer := rest })
    | none =>
      if f.fault.isSome then
        let (fault, g) := f.report
        (f.buffer, .ended fault, { g with buffer := [] })
      else if capacity ≤ f.buffer.length then (f.buffer, .full, { f with buffer := [] })
      else readSliceWithin mark rounds f.fill

def readSlice (f : Feed) (mark : UInt8) : List UInt8 × SliceEnd × Feed :=
  readSliceWithin mark (f.source.data.length + 2) f

/-- Puts slices together until one does not end with a full buffer. -/
def readThroughWithin (mark : UInt8) :
    Nat → List UInt8 → Feed → List UInt8 × Option Fault × Feed
  | 0, taken, f => (taken, some noProgress, f)
  | rounds + 1, taken, f =>
    match f.readSlice mark with
    | (slice, .marked, f) => (taken ++ slice, none, f)
    | (slice, .ended fault, f) => (taken ++ slice, some fault, f)
    | (slice, .full, f) => readThroughWithin mark rounds (taken ++ slice) f

/-- Hands out the bytes up to and with the next `mark`, or all that come before the ending, which is
then reported too. -/
def readThrough (f : Feed) (mark : UInt8) : List UInt8 × Option Fault × Feed :=
  readThroughWithin mark (f.source.data.length + 2) [] f

end Feed
end TapeMachine
