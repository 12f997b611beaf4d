import TapeMachine.Text.Numeral
import TapeMachine.Text.Quoted
import TapeMachine.Text.Utf8
import TapeMachine.Value

/-! Lines with a property each.

A property is a key and a value with an equals sign, a colon or blanks between them. A backslash at
the end of a line continues it. A value can use the values of other keys, and variables of the
environment. -/
namespace TapeMachine.Format.Properties

inductive Trouble
  | endsInEscape (line : Nat)
  | wrongCode (line : Nat)
  /-- A value without a key. -/
  | noKey (line : Nat) (value : String)
  | tooDeep
  | openReference
  /-- Keys that use each other, with their values. -/
  | circular (keys : List (String × String))
  deriving DecidableEq, Repr

/-- A value as a trouble shows it: of a long one only the first ten characters. -/
def excerpt (value : String) : String :=
  if 10 < value.utf8ByteSize then
    Text.Quoted.render (String.ofList (value.toList.take 10)) ++ "..."
  else Text.Quoted.render value

def Trouble.message : Trouble → String
  | .endsInEscape line => "properties: Line " ++ toString line ++ ": premature EOF"
  | .wrongCode line => "properties: Line " ++ toString line ++ ": invalid unicode literal"
  | .noKey line value => "properties: Line " ++ toString line ++ ": " ++ excerpt value
  | .tooDeep => "expansion too deep"
  | .openReference => "malformed expression"
  | .circular keys =>
    "circular reference in:\n" ++ String.join (keys.map fun (k, v) => k ++ "=" ++ v ++ "\n")

abbrev Table := List (String × String)

/-- Sets a key, which keeps its place if it has been set before. -/
def Table.put (t : Table) (key value : String) : Table :=
  if (t.lookup key).isSome then t.map fun (k, v) => if k = key then (k, value) else (k, v)
  else t ++ [(key, value)]

/-! ### Lines -/

def isGap (c : Char) : Bool := c == ' ' || c == '\x0c' || c == '\t'

def isLineEnd (c : Char) : Bool := c == '\n' || c == '\r'

def endsKey (c : Char) : Bool := isGap c || isLineEnd c || c == ':' || c == '='

/-- How many lines a stretch of text ends. -/
def lineEnds (s : List Char) : Nat := s.count '\n'

/-- A character given by four hexadecimal digits. -/
def code? (s : List Char) : Option Char :=
  let digits := s.take 4
  if digits.length = 4 && digits.all fun c => (Text.Numeral.digit? c).any (· < 16) then
    let n := digits.foldl (fun n c => n * 16 + (Text.Numeral.digit? c).getD 0) 0
    some (if 0xd800 ≤ n && n < 0xe000 then '\ufffd' else Char.ofNat n)
  else none

/-- What stands behind a backslash, in an item that begins in the given line. -/
def takeEscape (line : Nat) (s : List Char) : Except Trouble (Char × List Char) :=
  match s with
  | [] => .error (.endsInEscape line)
  | c :: rest =>
    if c == 'u' then
      match code? rest with
      | some c => .ok (c, rest.drop 4)
      | none => .error (.wrongCode line)
    else
      match [('f', 12), ('n', 10), ('r', 13), ('t', 9)].lookup c with
      | some n => .ok (Char.ofNat n, rest)
      | none => .ok (c, rest)

/-- A key up to what ends it. -/
def takeKey (line : Nat) : Nat → List Char → List Char → Except Trouble (List Char × List Char)
  | 0, key, s => .ok (key.reverse, s)
  | _, key, [] => .ok (key.reverse, [])
  | fuel + 1, key, c :: rest =>
    if c == '\\' then do
      let (found, rest) ← takeEscape line rest
      takeKey line fuel (found :: key) rest
    else if endsKey c then .ok (key.reverse, c :: rest)
    else takeKey line fuel (c :: key) rest

/-- A value up to the end of its line, and what follows. -/
def takeValue (line : Nat) : Nat → List Char → List Char → Except Trouble (List Char × List Char)
  | 0, value, s => .ok (value.reverse, s)
  | _, value, [] => .ok (value.reverse, [])
  | fuel + 1, value, c :: rest =>
    if c == '\\' then
      if rest.head?.any isLineEnd then
        takeValue line fuel value ((rest.drop 1).dropWhile isGap)
      else do
        let (found, rest) ← takeEscape line rest
        takeValue line fuel (found :: value) rest
    else if isLineEnd c then .ok (value.reverse, rest)
    else takeValue line fuel (c :: value) rest

/-- Skips what separates a key from its value. -/
def skipSeparator (s : List Char) : List Char :=
  match s.dropWhile isGap with
  | c :: rest => if c == ':' || c == '=' then rest.dropWhile isGap else c :: rest
  | [] => []

/-- Deals with the properties from the given line on. -/
def takeProperties : Nat → Nat → Table → List Char → Except Trouble Table
  | 0, _, t, _ => .ok t
  | _, _, t, [] => .ok t
  | fuel + 1, line, t, s@(c :: rest) =>
    if isGap c || isLineEnd c then takeProperties fuel (line + lineEnds [c]) t rest
    else if c == '#' || c == '!' then
      takeProperties fuel line t (rest.dropWhile fun c => !isLineEnd c)
    else do
      let (key, behind) ← takeKey line s.length [] s
      let beginning := skipSeparator behind
      let from_ := line + lineEnds (s.take (s.length - beginning.length))
      let (value, following) ← takeValue from_ beginning.length [] beginning
      let key := String.ofList key
      let value := String.ofList value
      let line := line + lineEnds (s.take (s.length - following.length))
      if key.isEmpty then
        if behind.isEmpty then return t
        throw (.noKey from_ value)
      takeProperties fuel line (t.put key value) following

/-! ### References -/

/-- How deep values can use each other. -/
def depthLimit : Nat := 64

/-- Splits a text at the first place where `mark` stands. -/
def splitAt? (mark : List Char) (s : List Char) : Option (List Char × List Char) :=
  match s with
  | [] => none
  | c :: rest =>
    if mark.isPrefixOf s then some ([], s.drop mark.length)
    else (splitAt? mark rest).map fun (before, behind) => (c :: before, behind)

/-- Replaces the references in a text by their values. `keys` are those on the way to the text. -/
def expand (environment : String → String) (t : Table) :
    Nat → List String → List Char → Except Trouble (List Char)
  | 0, _, _ => .error .tooDeep
  | fuel + 1, keys, s =>
    if depthLimit < keys.length then .error .tooDeep
    else
      match splitAt? ['$', '\x7b'] s with
      | none => .ok s
      | some (before, behind) =>
        match splitAt? ['\x7d'] behind with
        | none => .error .openReference
        | some (key, rest) => do
          let key := String.ofList key
          if keys.contains key then
            throw (.circular (keys.map fun k => (k, (t.lookup k).getD "")))
          let value := (t.lookup key).getD (environment key)
          let value ← expand environment t fuel (keys ++ [key]) value.toList
          expand environment t fuel keys (before ++ value ++ rest)

/-- How many references are replaced before a text is given up. -/
def replacementLimit : Nat := 4096

/-- The properties of a text with their references replaced. -/
def parse (environment : String → String) (bytes : List UInt8) : Except Trouble Table := do
  let s := Text.Utf8.decode bytes
  let t ← takeProperties (s.length + 1) 1 [] s
  t.mapM fun (key, value) => do
    let value ← expand environment t replacementLimit [key] value.toList
    return (key, String.ofList value)

/-! ### Nested values -/

/-- Sets the value at a path of names. What stands in the way gives way to a mapping. -/
def placeAt : List String → Value → List (Value × Value) → List (Value × Value)
  | [], _, entries => entries
  | [name], value, entries => Value.insert (.text name) value entries
  | name :: rest, value, entries =>
    let inner :=
      match Value.find? (.text name) entries with
      | some (.map _ inner) => inner
      | _ => []
    Value.insert (.text name) (.map true (placeAt rest value inner)) entries

end TapeMachine.Format.Properties
