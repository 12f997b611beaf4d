/-! The saved state of a session. -/
namespace TapeMachine

structure Snapshot where
  tapeSize : Int := 0
  cellWidth : Int := 0
  /-- The name of the policy for the end of the input. -/
  eof : String := ""
  pointer : Int := 0
  turns : Int := 0
  /-- Index and value of cells, ascending by index. Cells that are not listed are zero. -/
  cells : List (Int × Nat) := []
  deriving DecidableEq, Repr

end TapeMachine
