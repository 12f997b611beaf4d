import TapeMachine.Yaml.Trouble

/-! The characters of a document.

A document is in UTF-8, or in UTF-16 if it begins with the byte order mark of one. It has no control
characters apart from tabs and line ends. A byte order mark in front does not count.

Bytes are turned into characters block by block, and a block that is wrong is only met when a
character of it is asked for. So what is wrong early in the text is found before a later block is. -/
namespace TapeMachine.Yaml

/-- The text of a document, as far as it can be read. -/
structure Script where
  text : List Char
  /-- What is met when characters beyond the text are asked for. -/
  problem : Option Problem := none
  deriving DecidableEq, Repr

/-- Whether a document may hold the character. -/
def isAllowed (n : Nat) : Bool :=
  n == 0x09 || n == 0x0a || n == 0x0d || (0x20 ≤ n && n ≤ 0x7e) || n == 0x85
    || (0xa0 ≤ n && n ≤ 0xd7ff) || (0xe000 ≤ n && n ≤ 0xfffd) || (0x10000 ≤ n && n ≤ 0x10ffff)

/-- What the bytes at some place are. -/
inductive Found
  | character (c : Char) (width : Nat)
  /-- The beginning of a character whose end is missing. -/
  | cut (problem : Problem)
  | wrong (problem : Problem)
  deriving DecidableEq, Repr

/-- The character of a code point, if a document may hold it. -/
def found (n width : Nat) : Found :=
  if isAllowed n then .character (Char.ofNat n) width else .wrong .controlCharacter

/-! ### UTF-8 -/

/-- The number of bytes of a character that starts with `b`. -/
def width? (b : UInt8) : Option Nat :=
  if b < 0x80 then some 1
  else if 0xc0 ≤ b && b < 0xe0 then some 2
  else if 0xe0 ≤ b && b < 0xf0 then some 3
  else if 0xf0 ≤ b && b < 0xf8 then some 4
  else none

/-- The least code point that needs so many bytes. -/
def leastOf (width : Nat) : Nat :=
  if width = 1 then 0 else if width = 2 then 0x80 else if width = 3 then 0x800 else 0x10000

/-- The bits that the first byte of a character carries. -/
def leadBits (width : Nat) (b : UInt8) : Nat :=
  if width = 1 then b.toNat else b.toNat % Nat.pow 2 (7 - width)

def narrow (first : UInt8) (rest : List UInt8) : Found :=
  match width? first with
  | none => .wrong .leadingByte
  | some width =>
    let trailing := rest.take (width - 1)
    if trailing.length < width - 1 then .cut .incompleteBytes
    else if !trailing.all Text.Utf8.continues then .wrong .trailingByte
    else
      let n := trailing.foldl (fun n b => n * 0x40 + Text.Utf8.payload b) (leadBits width first)
      if n < leastOf width then .wrong .overlongBytes
      else if (0xd800 ≤ n && n ≤ 0xdfff) || 0x10ffff < n then .wrong .invalidCharacter
      else found n width

/-! ### UTF-16 -/

/-- The number of two bytes, of which the first is the low one if `little` holds. -/
def unit (little : Bool) (a b : UInt8) : Nat :=
  if little then a.toNat + b.toNat * 0x100 else b.toNat + a.toNat * 0x100

def wide (little : Bool) (bytes : List UInt8) : Found :=
  match bytes with
  | a :: b :: rest =>
    let n := unit little a b
    if n / 0x400 = 0x37 then .wrong .unexpectedLowHalf
    else if n / 0x400 = 0x36 then
      match rest with
      | c :: d :: _ =>
        let m := unit little c d
        if m / 0x400 = 0x37 then found (0x10000 + n % 0x400 * 0x400 + m % 0x400) 4
        else .wrong .missingLowHalf
      | _ => .cut .incompletePair
    else found n 2
  | _ => .cut .incompleteUnit

/-! ### Blocks -/

inductive Encoding
  | narrow
  | wide (little : Bool)
  deriving DecidableEq, Repr

/-- The encoding of a document, and the number of bytes of the mark that tells it. -/
def Encoding.detect (bytes : List UInt8) : Encoding × Nat :=
  if [0xff, 0xfe].isPrefixOf bytes then (.wide true, 2)
  else if [0xfe, 0xff].isPrefixOf bytes then (.wide false, 2)
  else if [0xef, 0xbb, 0xbf].isPrefixOf bytes then (.narrow, 3)
  else (.narrow, 0)

def Encoding.find (e : Encoding) (first : UInt8) (rest : List UInt8) : Found :=
  match e with
  | .narrow => Yaml.narrow first rest
  | .wide little => Yaml.wide little (first :: rest)

/-- The characters of a block, in reverse before `text`, and the bytes at its end that begin a
character. -/
def blockOf (e : Encoding) : Nat → List Char → List UInt8 →
    Except Problem (List Char × Option Problem × List UInt8)
  | 0, text, bytes => .ok (text, none, bytes)
  | _, text, [] => .ok (text, none, [])
  | fuel + 1, text, first :: rest =>
    match e.find first rest with
    | .wrong problem => .error problem
    | .cut problem => .ok (text, some problem, first :: rest)
    | .character c width => blockOf e fuel (c :: text) (rest.drop (width - 1))

/-- The number of bytes in a block. -/
def blockSize : Nat := 512

def scriptWithin (e : Encoding) : Nat → Nat → List Char → List UInt8 → Script
  | 0, _, text, _ => ⟨text.reverse, none⟩
  | fuel + 1, size, text, bytes =>
    let later := bytes.drop size
    match blockOf e size text (bytes.take size) with
    | .error problem => ⟨text.reverse, some problem⟩
    | .ok (text, problem, left) =>
      if later.isEmpty then ⟨text.reverse, problem⟩
      else scriptWithin e fuel blockSize text (left ++ later)

/-- The characters of a document. -/
def Script.ofBytes (bytes : List UInt8) : Script :=
  let (e, mark) := Encoding.detect bytes
  scriptWithin e (bytes.length + 1) (blockSize - mark) [] (bytes.drop mark)

end TapeMachine.Yaml
