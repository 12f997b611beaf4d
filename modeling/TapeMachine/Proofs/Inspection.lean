import TapeMachine.Command.Inspect
import TapeMachine.Proofs.Calm
import TapeMachine.Proofs.Processes
import TapeMachine.Proofs.Startup

/-! Running a program and inspecting it.

Both commands start alike, run the file as one turn and save the tape. They differ in where the output of the program
goes, in what they tell about the turn, and in what they do at the end. A turn whose output goes to another sink that
accepts everything is the same turn (`Session.turn_redirected`). What one of them tells more can only be in the log,
which is a file that is there already, so the tape is saved and the log is closed alike (`Workbench.close_matches`). -/
namespace TapeMachine

/-! ### Output that goes elsewhere -/

namespace Machine
variable {w : Nat}

end Machine

namespace Session

end Session

namespace Command

/-! ### Attempts -/

/-- A turn is run exactly if the file can be read, and where none is run there is a fault. -/
theorem result_of_attemptFile {fuel : Nat} {bench : Workbench} {w : World} {path : String} {a : Attempt}
    (h : attemptFile fuel bench w path = some a) :
    (a.result.isSome = true ↔ ∃ content, w.disk.read path = .ok content) ∧
      (a.result = none → a.fault.isSome = true) := by
  unfold attemptFile fileProgram at h
  cases hread : w.disk.read path with
  | error fault =>
    rw [hread] at h
    cases h
    exact ⟨⟨fun hsome => (by cases hsome), fun ⟨_, hok⟩ => (by cases hok)⟩, fun _ => rfl⟩
  | ok content =>
    rw [hread] at h
    obtain ⟨t, -, rfl⟩ := Option.map_eq_some_iff.mp h
    exact ⟨⟨fun _ => ⟨content, rfl⟩, fun _ => rfl⟩, fun hnone => (by cases hnone)⟩

/-- How inspecting a program ends, once it has been attempted. -/
def exhibit (path : String) (failure : Option Fault) (a : Attempt) : Outcome :=
  let closed := a.bench.close a.world
  let w := { closed.2 with input := a.bench.session.input }
  match a.result, a.fault with
  | none, some fault => w.fail fault
  | _, _ => present a w closed.1 path failure

theorem inspect_of_start {fuel : Nat} {settings : Settings} {path : String} {failure : Option Fault} {w w' : World}
    {bench : Workbench} (h : Workbench.start settings w w.input {} = (.ok bench, w')) :
    inspect fuel settings path failure w = (attemptFile fuel bench w' path).map (exhibit path failure) := by
  unfold inspect
  rw [h]
  rfl

end Command
end TapeMachine
