import TapeMachine.Command.Settings
import TapeMachine.Command.World
import TapeMachine.Snapshot.Document

/-! The surroundings of the turns of a command.

To start, the log is opened, the options are checked and the saved tape is taken over, in this order;
what fails there fails before anything runs. To close, the tape is saved and then the log is closed. -/
namespace TapeMachine.Command

structure Workbench where
  session : Session
  book : Logbook
  stateFile : String
  dumpState : Bool

namespace Workbench

/-- Opens the log. An unknown level and a file that cannot be written are invalid options. -/
def openLog (s : Settings) (w : World) : Except Fault Logbook × World :=
  match Logbook.start s.logLevel s.logFile w.disk with
  | .error fault => (.error (.caused .invalidOptions (.text fault.message)), w)
  | .ok (book, disk) => (.ok book, { w with disk })

/-- The tape saved in a file, if there is such a file. -/
def savedState (disk : Disk) (file : String) : Except Fault (Option Snapshot) :=
  match disk.read file with
  | .error fault =>
    if fault.isA .missingFile then .ok none else .error (.during "reading state file" fault)
  | .ok content =>
    match Snapshot.parse content with
    | (snapshot, none) => .ok (some snapshot)
    | (_, some fault) => .error (.during ("parsing state file " ++ file) fault)

/-- The record of a tape that was taken over. -/
def restoredRecord (file : String) (snapshot : Snapshot) : Log.Record :=
  ⟨Log.Level.info, "state restored",
    [("file", .text file), ("pointer", .number snapshot.pointer), ("turns", .number snapshot.turns)]⟩

/-- Takes over the saved tape. -/
def load (bench : Workbench) (w : World) : Except Fault Workbench × World :=
  if bench.stateFile = "" then (.ok bench, w)
  else
    match savedState w.disk bench.stateFile with
    | .error fault => (.error fault, w)
    | .ok none =>
      (.ok bench,
        w.noteAll bench.book [⟨Log.Level.debug, "no saved state", [("file", .text bench.stateFile)]⟩])
    | .ok (some snapshot) =>
      match bench.session.restore snapshot with
      | .error fault => (.error fault, w)
      | .ok session =>
        (.ok { bench with session }, w.noteAll bench.book [restoredRecord bench.stateFile snapshot])

/-- The record of a session that is ready. -/
def readyRecord (o : Options) : Log.Record :=
  ⟨Log.Level.debug, "session ready",
    [("tape_size", .number o.tapeSize), ("cell_width", .number o.cellWidth),
      ("eof", .text o.eof.name), ("max_steps", .number o.maxSteps)]⟩

/-- The workbench before the saved tape is taken over. -/
def create (s : Settings) (book : Logbook) (input : Input) (sink : Sink) :
    Except Fault Workbench :=
  match s.validOptions with
  | .error fault => .error fault
  | .ok options =>
    (Session.create options input (some sink) (some book.threshold)).map fun session =>
      { session, book, stateFile := s.stateFile, dumpState := s.dumpState }

/-- Starts, for turns that read from `input` and write to `sink`. -/
def start (s : Settings) (w : World) (input : Input) (sink : Sink) :
    Except Fault Workbench × World :=
  match openLog s w with
  | (.error fault, w) => (.error fault, w)
  | (.ok book, w) =>
    match create s book input sink with
    | .error fault => (.error fault, w)
    | .ok bench =>
      match bench.load w with
      | (.error fault, w) => (.error fault, w)
      | (.ok bench, w) => (.ok bench, w.noteAll book [readyRecord bench.session.options])

/-- Shows the state, if that is wanted. -/
def dump (bench : Workbench) (w : World) (snapshot : Snapshot) : World :=
  if bench.dumpState then w.tell ("---\n" ++ String.ofList snapshot.render) else w

/-- Saves the tape. -/
def save (bench : Workbench) (w : World) : Option Fault × World :=
  if bench.stateFile = "" then (none, w)
  else
    match w.disk.write bench.stateFile bench.session.snapshot.encode with
    | .error fault => (some (.during "writing state file" fault), w)
    | .ok disk =>
      (none,
        ({ w with disk }).noteAll bench.book
          [⟨Log.Level.info, "state saved", [("file", .text bench.stateFile)]⟩])

/-- Saves the tape and closes the log. That the log cannot be closed counts if the tape was saved. -/
def close (bench : Workbench) (w : World) : Option Fault × World :=
  let (saving, w) := bench.save w
  (saving.or (w.closeLog bench.book), w)

end Workbench
end TapeMachine.Command
