/-! Bytes written with sixty-four characters: four characters for three bytes, and equals signs in
place of the characters that the last bytes do not fill. -/
namespace TapeMachine.Text.Base64

/-- The number that a character stands for. -/
def digit? (c : Char) : Option Nat :=
  let n := c.toNat
  if 0x41 ≤ n && n ≤ 0x5a then some (n - 0x41)
  else if 0x61 ≤ n && n ≤ 0x7a then some (n - 0x61 + 26)
  else if 0x30 ≤ n && n ≤ 0x39 then some (n - 0x30 + 52)
  else if c == '+' then some 62
  else if c == '/' then some 63
  else none

/-- The first `count` of the three bytes of a number. -/
def bytesOf (count n : Nat) : List UInt8 :=
  [(n / 0x10000).toUInt8, (n / 0x100 % 0x100).toUInt8, (n % 0x100).toUInt8].take count

/-- The number of four characters. -/
def quantum? (a b c d : Char) : Option Nat := do
  return (((← digit? a) * 64 + (← digit? b)) * 64 + (← digit? c)) * 64 + (← digit? d)

def quanta? : List Char → Option (List UInt8)
  | [] => some []
  | [a, b, '=', '='] => (quantum? a b 'A' 'A').map (bytesOf 1)
  | [a, b, c, '='] => (quantum? a b c 'A').map (bytesOf 2)
  | a :: b :: c :: d :: rest => do
    let n ← quantum? a b c d
    return bytesOf 3 n ++ (← quanta? rest)
  | _ => none

/-- The bytes of a text. Line ends in it do not count. -/
def decode? (s : List Char) : Option (List UInt8) :=
  quanta? (s.filter fun c => c != '\n' && c != '\r')

end TapeMachine.Text.Base64
