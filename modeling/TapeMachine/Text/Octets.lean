import TapeMachine.Text.Graphic
import TapeMachine.Text.Hex
import TapeMachine.Text.Utf8

/-! Bytes looked at as characters: each byte is the character with its number. -/
namespace TapeMachine.Text.Octets

def ofBytes (bytes : List UInt8) : List Char := bytes.map fun b => Char.ofNat b.toNat

def toBytes (s : List Char) : List UInt8 := s.map fun c => c.toNat.toUInt8

/-- The text that the bytes encode. -/
def text (s : List Char) : String := String.ofList (Utf8.decode (toBytes s))

/-- The number of a character, with the character itself if it can be shown. -/
def codePoint (c : Char) : String :=
  let number := padLeft 4 '0' ((Hex.digits c.toNat).map Char.toUpper)
  String.ofList ('U' :: '+' :: number ++ if isGraphic c then [' ', '\'', c, '\''] else [])

end TapeMachine.Text.Octets
