/-! UTF-8, on lists of bytes.

`decode` is total: a byte that starts no well-formed sequence is read as the replacement character
and costs one byte. `decode?` refuses such a byte. -/
namespace TapeMachine.Text.Utf8

/-- The bytes of one character. -/
def encodeChar (c : Char) : List UInt8 :=
  let n := c.toNat
  if n < 0x80 then [n.toUInt8]
  else if n < 0x800 then [(0xc0 + n / 0x40).toUInt8, (0x80 + n % 0x40).toUInt8]
  else if n < 0x10000 then
    [(0xe0 + n / 0x1000).toUInt8, (0x80 + n / 0x40 % 0x40).toUInt8, (0x80 + n % 0x40).toUInt8]
  else
    [(0xf0 + n / 0x40000).toUInt8, (0x80 + n / 0x1000 % 0x40).toUInt8,
      (0x80 + n / 0x40 % 0x40).toUInt8, (0x80 + n % 0x40).toUInt8]

/-- The bytes of a text. -/
def encode (s : List Char) : List UInt8 := s.flatMap encodeChar

/-- Whether `b` continues a sequence. -/
def continues (b : UInt8) : Bool := 0x80 ≤ b && b < 0xc0

/-- The low six bits that a continuing byte carries. -/
def payload (b : UInt8) : Nat := b.toNat % 0x40

/-- The character with code `n` in a sequence that must not be shorter than it is: `n` is at least
`least`, and neither a surrogate nor beyond the last code point. -/
def character? (least n : Nat) : Option Char :=
  if least ≤ n ∧ n < 0x110000 ∧ ¬(0xd800 ≤ n ∧ n < 0xe000) then some (Char.ofNat n) else none

/-- The first character of `bytes` and the number of bytes it takes, if it is well formed. -/
def first? : List UInt8 → Option (Char × Nat)
  | [] => none
  | a :: rest =>
    if a < 0x80 then some (Char.ofNat a.toNat, 1)
    else if 0xc0 ≤ a && a < 0xe0 then
      match rest with
      | b :: _ =>
        if continues b then
          (character? 0x80 (a.toNat % 0x20 * 0x40 + payload b)).map (·, 2)
        else none
      | [] => none
    else if 0xe0 ≤ a && a < 0xf0 then
      match rest with
      | b :: c :: _ =>
        if continues b && continues c then
          (character? 0x800 (a.toNat % 0x10 * 0x1000 + payload b * 0x40 + payload c)).map (·, 3)
        else none
      | _ => none
    else if 0xf0 ≤ a && a < 0xf8 then
      match rest with
      | b :: c :: d :: _ =>
        if continues b && continues c && continues d then
          (character? 0x10000 (a.toNat % 0x08 * 0x40000 + payload b * 0x1000 + payload c * 0x40
            + payload d)).map (·, 4)
        else none
      | _ => none
    else none

/-- Reads `fuel` characters at most, with `replacement` for what is not well formed; `none` in its
place makes the whole reading fail there. -/
def decodeWith (replacement : Option Char) : Nat → List UInt8 → Option (List Char)
  | 0, _ => some []
  | _, [] => some []
  | fuel + 1, bytes@(_ :: rest) =>
    match first? bytes with
    | some (c, n) => (decodeWith replacement fuel (bytes.drop n)).map (c :: ·)
    | none =>
      match replacement with
      | some c => (decodeWith replacement fuel rest).map (c :: ·)
      | none => none

/-- The characters of `bytes`, if all of it is well formed. -/
def decode? (bytes : List UInt8) : Option (List Char) := decodeWith none bytes.length bytes

/-- The characters of `bytes`, with U+FFFD for every byte that is not part of one. -/
def decode (bytes : List UInt8) : List Char :=
  (decodeWith (some (Char.ofNat 0xfffd)) bytes.length bytes).getD []

end TapeMachine.Text.Utf8
