import TapeMachine.Text.Graphic
import TapeMachine.Text.Hex

/-! Texts in double quotes.

Graphic characters stand for themselves, quote and backslash are escaped, the usual control
characters have one-letter escapes, and every other character is written by its number. -/
namespace TapeMachine.Text.Quoted

/-- The letter that escapes a control character. -/
def letter? (c : Char) : Option Char :=
  match c.toNat with
  | 7 => some 'a'
  | 8 => some 'b'
  | 9 => some 't'
  | 10 => some 'n'
  | 11 => some 'v'
  | 12 => some 'f'
  | 13 => some 'r'
  | _ => none

/-- A character by its number, with as many digits as it needs: two, four or eight. -/
def numbered (c : Char) : List Char :=
  let n := c.toNat
  if n < 0x80 then '\\' :: 'x' :: padLeft 2 '0' (Hex.digits n)
  else if n < 0x10000 then '\\' :: 'u' :: padLeft 4 '0' (Hex.digits n)
  else '\\' :: 'U' :: padLeft 8 '0' (Hex.digits n)

def encodeChar (c : Char) : List Char :=
  if c = '"' then ['\\', '"']
  else if c = '\\' then ['\\', '\\']
  else if isGraphic c then [c]
  else
    match letter? c with
    | some l => ['\\', l]
    | none => numbered c

/-- The text between double quotes. -/
def encode (s : List Char) : List Char := '"' :: s.flatMap encodeChar ++ ['"']

def render (s : String) : String := String.ofList (encode s.toList)

end TapeMachine.Text.Quoted
