/-! The character column: a printable ASCII byte stands for itself, any other is a point. -/
namespace TapeMachine.Text

/-- The blank and the visible ASCII characters. -/
def isVisible (b : UInt8) : Bool := 0x20 ≤ b && b < 0x7f

/-- What the character column shows for `b`. -/
def printable (b : UInt8) : String :=
  if isVisible b then String.singleton (Char.ofNat b.toNat) else "."

end TapeMachine.Text
