import TapeMachine.Log.Record
import TapeMachine.Machine
import TapeMachine.Snapshot
import TapeMachine.Store
import TapeMachine.Word

/-! Sessions: turns on one tape.

A turn resolves the brackets of its source and, if they are balanced, runs it on the tape as the turns
before have left it. The tape, the input, the sink, the number of turns and the loop stack are all that a
turn leaves behind; everything else of a machine ends with the turn. The stack is one for all turns, and each
clears it first. -/
namespace TapeMachine

structure Session where
  options : Options
  store : Store
  input : Input := .absent
  sink : Option Sink := none
  turns : Int := 0
  /-- The loop stack, as the last turn has left it. -/
  loops : Stack Nat := {}
  /-- The least level of the records kept; without one none is. -/
  threshold : Option Log.Level := none

/-- What a turn leads to. -/
structure Turn where
  session : Session
  result : Result
  fault : Option Fault
  records : List Log.Record
  signal : Signal

/-- What handing a source to a session leads to: a turn, or a fault that kept it from being run. -/
structure Submission where
  session : Session
  result : Option Result := none
  fault : Option Fault
  records : List Log.Record := []
  signal : Signal

/-- A turn that was run. -/
def Turn.submission (t : Turn) : Submission :=
  { session := t.session
    result := some t.result
    fault := t.fault
    records := t.records
    signal := t.signal }

namespace Session

/-- A session on a blank tape, if the options allow one. -/
def create (options : Options) (input : Input := .absent) (sink : Option Sink := none)
    (threshold : Option Log.Level := none) : Except Fault Session :=
  (Store.ofOptions options).map fun store => { options, store, input, sink, threshold }

/-- The task of running `source` under the options of the session. -/
def task (s : Session) (source : Program) (jumps : JumpTable) : Task :=
  { program := source, jumps, eof := s.options.eof, limit := s.options.stepLimit? }

/-- The machine that the session's tape, input and sink make up, with its stack cleared. -/
def machine (s : Session) (signal : Signal) : Machine s.store.width :=
  { tape := s.store.tape
    input := s.input
    outbox := { sink := s.sink }
    signal
    loops := s.loops.clear }

/-- Takes back tape, input, sink and stack from a machine. -/
def settle {w : Nat} (s : Session) (m : Machine w) : Session :=
  { s with store := ⟨w, m.tape⟩, input := m.input, sink := m.outbox.sink, loops := m.loops }

/-! ### Records -/

def debug (message : String) (attributes : List (String × Log.Value)) : Log.Record :=
  ⟨Log.Level.debug, message, attributes⟩

def startedRecord (s : Session) (source : Program) : Log.Record :=
  debug "turn started"
    [("turn", .number s.turns), ("bytes", .number source.size), ("pointer", .number s.store.pointer)]

def rejectedRecord (s : Session) (fault : Fault) : Log.Record :=
  debug "turn rejected" [("turn", .number s.turns), ("error", .text fault.message)]

def resolvedRecord (s : Session) (source : Program) (jumps : JumpTable) : Log.Record :=
  debug "turn resolved"
    [("turn", .number s.turns), ("instructions", .number (instructionCount source.toList)),
      ("loops", .number jumps.pairCount), ("pairs", .table jumps.pairs)]

def finishedRecord (result : Result) (pointer : Int) : Log.Record :=
  debug "turn finished"
    [("steps", .number result.steps), ("read", .number result.read),
      ("written", .number result.written), ("pointer", .number pointer)]

def failedRecord (s : Session) (result : Result) (fault : Fault) : Log.Record :=
  debug "turn failed"
    [("turn", .number s.turns), ("reason", .text result.stop.name), ("error", .text fault.message)]

/-- The record that closes a turn that was run. -/
def closingRecord (s : Session) (result : Result) : Option Fault → Log.Record
  | none => finishedRecord result s.store.pointer
  | some fault => failedRecord s result fault

/-! ### Turns -/

/-- Counts a turn. -/
def count (s : Session) : Session := { s with turns := Word.wrap (s.turns + 1) }

/-- Runs `source` once, within `fuel` steps. There is no turn if they do not suffice. -/
def turn (s : Session) (fuel : Nat) (signal : Signal) (source : Program) : Option Turn :=
  let s := s.count
  let started := s.startedRecord source
  match Brackets.resolve source with
  | .error cause =>
    let fault := Fault.caused .unbalancedBrackets cause
    some
      { session := s
        result := { stop := .failed }
        fault := some fault
        records := Log.admitted s.threshold [started, s.rejectedRecord fault]
        signal }
  | .ok jumps =>
    let resolved := s.resolvedRecord source jumps
    match (s.machine signal).launch (s.task source jumps) fuel with
    | none => none
    | some halt =>
      let s := s.settle halt.machine
      some
        { session := s
          result := halt.result
          fault := halt.fault
          records :=
            Log.admitted s.threshold [started, resolved, s.closingRecord halt.result halt.fault]
          signal := halt.machine.signal }

/-- Runs what a source delivers, if it can be read whole. A read may cancel the turn beforehand. -/
def turnOfSource (s : Session) (fuel : Nat) (signal : Signal) (source : Source) :
    Option Submission :=
  let calls := source.calls
  let (answer, source) := source.readAll
  let signal := signal.cancelIf (source.hasCancelledSince calls)
  match answer with
  | .error fault => some { session := s, fault := some (.during "reading source" fault), signal }
  | .ok program => (s.turn fuel signal program).map Turn.submission

/-! ### Reset, snapshot, restore -/

/-- Clears the tape and the count of turns. -/
def reset (s : Session) : Session := { s with store := s.store.reset, turns := 0 }

def snapshot (s : Session) : Snapshot :=
  { tapeSize := s.store.size
    cellWidth := s.store.width
    eof := s.options.eof.name
    pointer := s.store.pointer
    turns := s.turns
    cells := s.store.nonzero.map fun (i, v) => ((i : Int), v) }

/-- The first objection to the cells of a snapshot. -/
def cellObjection? (s : Session) : List (Int × Nat) → Option Cause
  | [] => none
  | (i, v) :: rest =>
    if i < 0 ∨ (s.store.size : Int) ≤ i then some (.cellOutOfRange i)
    else if Nat.pow 2 s.store.width ≤ v then some (.valueTooWide i v s.store.width)
    else s.cellObjection? rest

/-- The first objection to restoring a snapshot. -/
def objection? (s : Session) (snap : Snapshot) : Option Cause :=
  if snap.tapeSize ≠ s.store.size ∨ snap.cellWidth ≠ s.store.width then
    some (.otherTape snap.tapeSize snap.cellWidth s.store.size s.store.width)
  else if snap.pointer < 0 ∨ (s.store.size : Int) ≤ snap.pointer then
    some (.pointerOutOfRange snap.pointer)
  else s.cellObjection? snap.cells

/-- Writes cells one after the other. -/
def writeCells {w : Nat} (t : Tape w) (cells : List (Int × Nat)) : Tape w :=
  cells.foldl (fun t (i, v) => (t.seek i).setValue v) t

/-- The store that a snapshot describes, on the tape of the session. -/
def restoredStore (s : Session) (snap : Snapshot) : Store :=
  ⟨s.store.width, (writeCells s.store.tape.reset snap.cells).seek snap.pointer⟩

/-- Takes over a snapshot, or refuses it whole. -/
def restore (s : Session) (snap : Snapshot) : Except Fault Session :=
  match s.objection? snap with
  | some cause => .error (.caused .invalidOptions cause)
  | none => .ok { s with store := s.restoredStore snap, turns := snap.turns }

end Session
end TapeMachine
