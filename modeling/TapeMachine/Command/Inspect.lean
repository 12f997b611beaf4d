import TapeMachine.Command.Run
import TapeMachine.Path

/-! Running a program file once and showing the tape it leaves.

The output of the program is caught and shown beside the tape. The tape is shown after a failed run
as well. -/
namespace TapeMachine.Command

/-- The viewer of a run that came to an end. -/
def viewerOf (a : Attempt) (path : String) : Inspect.Viewer :=
  let s := a.bench.session
  Inspect.Viewer.create s (Path.base path) ((s.sink.map (·.delivered.toList)).getD []) a.result

/-- Shows the tape of a run; showing it may fail. -/
def present (a : Attempt) (w : World) (closing : Option Fault) (path : String)
    (failure : Option Fault) : Outcome :=
  let w :=
    match a.fault with
    | some fault => w.complain fault
    | none => w
  let viewer := some (viewerOf a path)
  match failure, a.fault with
  | some fault, _ => { w.fail fault with viewer }
  | none, some fault => ⟨exitCode (some fault), w, viewer⟩
  | none, none => ⟨exitCode closing, w, viewer⟩

/-- Runs the program at a path and shows its tape. -/
def inspect (fuel : Nat) (s : Settings) (path : String) (failure : Option Fault) (w : World) :
    Option Outcome :=
  match Workbench.start s w w.input {} with
  | (.error fault, w) => some (w.fail fault)
  | (.ok bench, w) =>
    (attemptFile fuel bench w path).map fun a =>
      let (closing, w) := a.bench.close a.world
      let w := { w with input := a.bench.session.input }
      match a.result, a.fault with
      | none, some fault => w.fail fault
      | _, _ => present a w closing path failure

end TapeMachine.Command
