import TapeMachine.Command.Workbench

/-! Running a program file once. -/
namespace TapeMachine.Command

/-- The program in a file. -/
def fileProgram (disk : Disk) (path : String) : Except Fault Program :=
  match disk.read path with
  | .ok content => .ok content.toArray
  | .error fault => .error (.during "reading source file" fault)

/-- A turn on a workbench, or the fault that kept it from being run. -/
structure Attempt where
  bench : Workbench
  world : World
  result : Option Result := none
  fault : Option Fault := none

/-- An attempt that ends before a turn. -/
def refused (bench : Workbench) (w : World) (fault : Fault) : Attempt :=
  { bench := bench, world := w, fault := some fault }

/-- Runs a program as one turn. There is no attempt if `fuel` steps do not suffice. -/
def attempt (fuel : Nat) (bench : Workbench) (w : World) (source : Program) : Option Attempt :=
  (bench.session.turn fuel w.signal source).map fun t =>
    { bench := { bench with session := t.session }
      world := ({ w with signal := t.signal }).noteAll bench.book t.records
      result := some t.result
      fault := t.fault }

/-- Runs the program in a file. -/
def attemptFile (fuel : Nat) (bench : Workbench) (w : World) (path : String) : Option Attempt :=
  match fileProgram w.disk path with
  | .error fault => some (refused bench w fault)
  | .ok source => attempt fuel bench w source

/-- Runs the program that the standard input holds. -/
def attemptInput (fuel : Nat) (bench : Workbench) (w : World) : Option Attempt :=
  let (answer, input) := bench.session.input.readAll
  let w := { w with signal := w.signal.cancelIf (input.hasCancelledSince bench.session.input.calls) }
  let bench := { bench with session := { bench.session with input } }
  match answer with
  | .error fault => some (refused bench w (.during "reading source" fault))
  | .ok source => attempt fuel bench w source

/-- Gives back what the session has read from and written to. -/
def settle (w : World) (s : Session) : World :=
  { w with input := s.input, output := s.sink.getD w.output }

/-- The record of a program that has ended. -/
def finishedRecord (path : String) (result : Result) : Log.Record :=
  ⟨Log.Level.debug, "program finished",
    [("file", .text path), ("steps", .number result.steps), ("reason", .text result.stop.name)]⟩

/-- Tells about a program that has ended. -/
def announce (a : Attempt) (path : String) : World :=
  match a.result with
  | none => a.world
  | some result =>
    a.bench.dump (a.world.noteAll a.bench.book [finishedRecord path result])
      a.bench.session.snapshot

/-- Runs the program at a path; `-` stands for the standard input. -/
def run (fuel : Nat) (s : Settings) (path : String) (w : World) : Option Outcome :=
  match Workbench.start s w w.input w.output with
  | (.error fault, w) => some (w.fail fault)
  | (.ok bench, w) =>
    (if path = "-" then attemptInput fuel bench w else attemptFile fuel bench w path).map fun a =>
      let (closing, w) := a.bench.close (announce a path)
      (settle w a.bench.session).finish a.fault closing

end TapeMachine.Command
