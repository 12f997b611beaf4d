import TapeMachine.Text.Numeral
import TapeMachine.Yaml.Characters
import TapeMachine.Yaml.Token

/-! The small tokens around a value: anchors, aliases, tags and directives. -/
namespace TapeMachine.Yaml

/-- Whether a name can hold the character. -/
def isNameChar (c : Char) : Bool :=
  c.isAlphanum || c == '_' || c == '-'

/-- The characters that may follow an anchor directly. -/
def afterAnchor : List Char := ['?', ':', ',', ']', '\x7d', '%', '@', '\x60']

/-- The name of an anchor or alias, from its mark on. -/
def takeName (c : Cursor) : Except Trouble (String × Cursor) :=
  let start := c.mark
  let (name, c) := c.skip.takeWhile isNameChar
  if name.isEmpty || !(c.seesSpace 0 || (c.peek? 0).any afterAnchor.contains) then
    .error (.scanning start c.mark .missingName)
  else .ok (String.ofList name, c)

/-! ### Tags -/

/-- Whether the text of a tag can hold the character. -/
def isTagChar (c : Char) : Bool :=
  isNameChar c || [';', '/', '?', ':', '@', '&', '=', '+', '$', ',', '.', '!', '~', '*', '\'', '(',
    ')', '[', ']'].contains c

/-- A byte given by a percent sign and two hexadecimal digits. -/
def escapedByte? (c : Cursor) : Option UInt8 :=
  let digit (k : Nat) : Option Nat := ((c.peek? k).bind Text.Numeral.digit?).filter (· < 16)
  match c.sees 0 '%', digit 1, digit 2 with
  | true, some high, some low => some (high * 16 + low).toUInt8
  | _, _, _ => none

/-- The `n` bytes behind the first one of an escaped character. -/
def trailingEscapes (start : Mark) : Nat → Cursor → Except Trouble (List UInt8 × Cursor)
  | 0, c => .ok ([], c)
  | n + 1, c =>
    match escapedByte? c with
    | none => .error (.scanning start c.mark .missingEscape)
    | some b =>
      if !Text.Utf8.continues b then .error (.scanning start c.mark .wrongTrailingEscape)
      else (trailingEscapes start n (c.skipMany 3)).map fun (bytes, c) => (b :: bytes, c)

/-- A character given by its escaped bytes. -/
def takeEscapes (start : Mark) (c : Cursor) : Except Trouble (List Char × Cursor) :=
  match escapedByte? c with
  | none => .error (.scanning start c.mark .missingEscape)
  | some b =>
    match width? b with
    | none => .error (.scanning start c.mark .wrongLeadingEscape)
    | some width =>
      (trailingEscapes start (width - 1) (c.skipMany 3)).map fun (bytes, c) =>
        (Text.Utf8.decode (b :: bytes), c)

/-- The text of a tag. -/
def takeTagText (start : Mark) : Nat → Cursor → Except Trouble (List Char × Cursor)
  | 0, c => .ok ([], c)
  | fuel + 1, c =>
    match c.peek? 0 with
    | none => .ok ([], c)
    | some x =>
      if x == '%' then do
        let (first, c) ← takeEscapes start c
        let (rest, c) ← takeTagText start fuel c
        return (first ++ rest, c)
      else if isTagChar x then
        (takeTagText start fuel c.skip).map fun (rest, c) => (x :: rest, c)
      else .ok ([], c)

/-- The text of a tag where there has to be one. -/
def requireTagText (start : Mark) (fuel : Nat) (c : Cursor) :
    Except Trouble (List Char × Cursor) := do
  if !(c.peek? 0).any fun x => isTagChar x || x == '%' then
    throw (.scanning start c.mark .missingTagText)
  takeTagText start fuel c

/-- A mark, the name behind it, and the mark behind that if there is one. -/
def takeHandle (start : Mark) (c : Cursor) : Except Trouble (List Char × Cursor) :=
  if !c.sees 0 '!' then .error (.scanning start c.mark .missingTagMark)
  else
    let (name, c) := c.skip.takeWhile isNameChar
    if c.sees 0 '!' then .ok ('!' :: name ++ ['!'], c.skip) else .ok ('!' :: name, c)

/-- Whether a handle is more than a mark and ends with one. -/
def isFullHandle (handle : List Char) : Bool := 1 < handle.length && handle.getLast? == some '!'

/-- A tag, from its mark on: handle and suffix. A mark that stands alone is a suffix. -/
def takeTag (fuel : Nat) (c : Cursor) : Except Trouble ((String × String) × Cursor) := do
  let start := c.mark
  let (tag, c) ←
    if c.sees 1 '<' then do
      let (text, c) ← requireTagText start fuel (c.skipMany 2)
      if !c.sees 0 '>' then throw (.scanning start c.mark .missingTagEnd)
      pure (([], text), c.skip)
    else do
      let (handle, c) ← takeHandle start c
      if isFullHandle handle then do
        let (suffix, c) ← requireTagText start fuel c
        pure ((handle, suffix), c)
      else do
        let (rest, c) ← takeTagText start fuel c
        let suffix := handle.drop 1 ++ rest
        pure (if suffix.isEmpty then ([], ['!']) else (['!'], suffix), c)
  if !c.seesSpace 0 then throw (.scanning start c.mark .missingSpaceAfterTag)
  return ((String.ofList tag.1, String.ofList tag.2), c)

/-! ### Directives -/

/-- The digits of a version number, two at most. -/
def takeVersionNumber (start : Mark) (c : Cursor) : Except Trouble (Nat × Cursor) :=
  let (digits, c) := c.takeWhile Char.isDigit
  if 2 < digits.length then .error (.scanning start c.mark .longVersion)
  else if digits.isEmpty then .error (.scanning start c.mark .missingVersion)
  else .ok (digits.foldl (fun n d => n * 10 + (d.toNat - 0x30)) 0, c)

def takeVersion (start : Mark) (c : Cursor) : Except Trouble (Shape × Cursor) := do
  let (major, c) ← takeVersionNumber start c
  if !c.sees 0 '.' then throw (.scanning start c.mark .missingVersionPoint)
  let (minor, c) ← takeVersionNumber start c.skip
  return (.version major minor, c)

def takeReplacement (start : Mark) (fuel : Nat) (c : Cursor) : Except Trouble (Shape × Cursor) := do
  let (handle, c) ← takeHandle start c
  if handle ≠ ['!'] && !isFullHandle handle then throw (.scanning start c.mark .missingTagMark)
  if !c.seesBlank 0 then throw (.scanning start c.mark .missingBlank)
  let (_, c) := c.takeWhile isBlank
  let (text, c) ← requireTagText start fuel c
  if !c.seesSpace 0 then throw (.scanning start c.mark .missingSpaceAfterTag)
  return (.handle (String.ofList handle) (String.ofList text), c)

/-- A directive, from its mark to the end of its line. -/
def takeDirective (fuel : Nat) (c : Cursor) : Except Trouble (Shape × Cursor) := do
  let start := c.mark
  let (name, c) := c.skip.takeWhile isNameChar
  if name.isEmpty then throw (.scanning start c.mark .missingDirectiveName)
  if !c.seesSpace 0 then throw (.scanning start c.mark .wrongDirectiveName)
  let (_, c) := c.takeWhile isBlank
  let (shape, c) ←
    if String.ofList name = "YAML" then takeVersion start c
    else if String.ofList name = "TAG" then takeReplacement start fuel c
    else throw (.scanning start c.mark .unknownDirective)
  let (_, c) := c.takeWhile isBlank
  let (_, c) := if c.sees 0 '#' then c.takeWhile fun _ => true else ([], c)
  if !c.seesBreakOrEnd 0 then throw (.scanning start c.mark .missingLineBreak)
  return (shape, if c.seesBreak 0 then c.takeBreak.2 else c)

end TapeMachine.Yaml
