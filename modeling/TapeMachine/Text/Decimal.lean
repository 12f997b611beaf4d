/-! Integers in decimal digits. -/
namespace TapeMachine.Text.Decimal

/-- The digits of a natural number. -/
def digits (n : Nat) : List Char := Nat.toDigits 10 n

/-- The digits of an integer, with a minus sign before those of a negative one. -/
def signed (i : Int) : List Char :=
  if i < 0 then '-' :: digits (-i).toNat else digits i.toNat

end TapeMachine.Text.Decimal
