import TapeMachine.Text.Padding

/-! Hexadecimal columns: `0x` and lower-case digits.

A column is asked for with a signed width. A width that is not negative is filled with zeros on the
left; a negative one fills its absolute value with blanks on the right. Widths beyond ten million and
nine are not understood, and the number is then told beside that. -/
namespace TapeMachine.Text.Hex

/-- The hexadecimal digits of `n`, without leading zeros. -/
def digits (n : Nat) : List Char := Nat.toDigits 16 n

/-- The digits of `n` in a column of `width` characters. -/
def column (n : Nat) (width : Int) : List Char :=
  if 0 ≤ width then padLeft width.toNat '0' (digits n)
  else padRight width.natAbs ' ' (digits n)

/-- The widest column. -/
def widest : Nat := 10000009

/-- The column with its mark. -/
def render (n : Nat) (width : Int) : String :=
  if widest < width.natAbs then
    "0x%!(NOVERB)%!(EXTRA string=" ++ String.ofList (digits n) ++ ")"
  else String.ofList ('0' :: 'x' :: column n width)

end TapeMachine.Text.Hex
