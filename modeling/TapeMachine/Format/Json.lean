import TapeMachine.Text.Octets
import TapeMachine.Text.Quoted
import TapeMachine.Value

/-! Objects in JSON.

The whole text is looked at before anything is taken from it. The first character that cannot stand
where it is makes the text unreadable; a text that ends too early counts as one that goes on with a
blank. -/
namespace TapeMachine.Format.Json

/-- Where a character was met that cannot stand there. -/
inductive Place
  | value
  | name
  | afterName
  | afterEntry
  | afterItem
  | afterAll
  | string
  | escape
  | code
  | number
  | point
  | exponent
  | word (whole : String) (expected : Char)
  | depth
  deriving DecidableEq, Repr

def Place.text : Place → String
  | .value => "looking for beginning of value"
  | .name => "looking for beginning of object key string"
  | .afterName => "after object key"
  | .afterEntry => "after object key:value pair"
  | .afterItem => "after array element"
  | .afterAll => "after top-level value"
  | .string => "in string literal"
  | .escape => "in string escape code"
  | .code => "in \\u hexadecimal character escape"
  | .number => "in numeric literal"
  | .point => "after decimal point in numeric literal"
  | .exponent => "in exponent of numeric literal"
  | .word whole expected =>
    "in literal " ++ whole ++ " (expecting '" ++ String.singleton expected ++ "')"
  | .depth => "exceeded max depth"

inductive Trouble
  | character (c : Char) (place : Place)
  | ended
  /-- A value where an object is wanted. -/
  | noObject (kind : String)
  /-- A number that is too large. -/
  | tooLarge (digits : String)
  deriving DecidableEq, Repr

/-- A character in single quotes. -/
def quoted (c : Char) : String :=
  let body :=
    if c == '\'' then ['\\', '\''] else if c == '"' then ['"'] else Text.Quoted.encodeChar c
  String.ofList ('\'' :: body ++ ['\''])

def Trouble.message : Trouble → String
  | .character c place => "invalid character " ++ quoted c ++ " " ++ place.text
  | .ended => "unexpected end of JSON input"
  | .noObject kind =>
    "json: cannot unmarshal " ++ kind ++ " into Go value of type map[string]interface \x7b\x7d"
  | .tooLarge digits =>
    "json: cannot unmarshal number " ++ digits ++ " into Go value of type float64"

def isSpace (c : Char) : Bool := c == ' ' || c == '\t' || c == '\r' || c == '\n'

def skip (s : List Char) : List Char := s.dropWhile isSpace

/-- The trouble with the next character. At the end it is a blank. -/
def wrong {α : Type} (place : Place) (s : List Char) : Except Trouble α :=
  .error (.character (s.head?.getD ' ') place)

/-- The trouble with the next character, where blanks may stand before it. -/
def wrongOrEnd {α : Type} (place : Place) (s : List Char) : Except Trouble α :=
  match s with
  | [] => .error .ended
  | c :: _ => .error (.character c place)

/-! ### Strings -/

/-- A part of a string: a byte, or a unit of sixteen bits that was written as an escape. -/
inductive Part
  | byte (c : Char)
  | unit (n : Nat)
  deriving DecidableEq, Repr

/-- The bytes of the parts of a string. Two units can make one character, and half a one is replaced. -/
def join : List Part → List UInt8
  | [] => []
  | .byte c :: rest => c.toNat.toUInt8 :: join rest
  | .unit a :: .unit b :: rest =>
    if 0xd800 ≤ a && a < 0xdc00 && 0xdc00 ≤ b && b < 0xe000 then
      Text.Utf8.encodeChar (Char.ofNat (0x10000 + (a - 0xd800) * 0x400 + (b - 0xdc00))) ++ join rest
    else
      Text.Utf8.encodeChar (if 0xd800 ≤ a && a < 0xe000 then '\ufffd' else Char.ofNat a)
        ++ join (.unit b :: rest)
  | .unit a :: rest =>
    Text.Utf8.encodeChar (if 0xd800 ≤ a && a < 0xe000 then '\ufffd' else Char.ofNat a) ++ join rest

/-- Hexadecimal digits of a unit, `count` of them. -/
def takeCode : Nat → Nat → List Char → Except Trouble (Nat × List Char)
  | 0, n, s => .ok (n, s)
  | count + 1, n, s =>
    match s with
    | c :: rest =>
      match Text.Numeral.digit? c with
      | some d => if d < 16 then takeCode count (n * 16 + d) rest else wrong .code s
      | none => wrong .code s
    | [] => wrong .code s

/-- What stands behind a backslash. -/
def takeEscape (s : List Char) : Except Trouble (Part × List Char) :=
  match s with
  | [] => wrong .escape s
  | c :: rest =>
    if c == 'u' then (takeCode 4 0 rest).map fun (n, rest) => (.unit n, rest)
    else
      match [('b', 8), ('f', 12), ('n', 10), ('r', 13), ('t', 9)].lookup c with
      | some n => .ok (.byte (Char.ofNat n), rest)
      | none => if c == '\\' || c == '/' || c == '"' then .ok (.byte c, rest) else wrong .escape s

/-- The parts of a string, up to the quote that ends it. -/
def takeString : Nat → List Part → List Char → Except Trouble (String × List Char)
  | 0, _, _ => .error .ended
  | fuel + 1, parts, s =>
    match s with
    | [] => .error .ended
    | c :: rest =>
      if c == '"' then .ok (String.ofList (Text.Utf8.decode (join parts.reverse)), rest)
      else if c == '\\' then do
        let (part, rest) ← takeEscape rest
        takeString fuel (part :: parts) rest
      else if c.toNat < 0x20 then wrong .string s
      else takeString fuel (.byte c :: parts) rest

/-! ### Numbers and words -/

/-- Digits, of which there has to be one. -/
def takeDigits (place : Place) (s : List Char) : Except Trouble (List Char × List Char) :=
  match s.takeWhile Char.isDigit with
  | [] => wrong place s
  | digits => .ok (digits, s.drop digits.length)

/-- The whole part of a number. A zero in front stands alone. -/
def takeWhole (s : List Char) : Except Trouble (List Char × List Char) :=
  match s with
  | '0' :: rest => .ok (['0'], rest)
  | _ => takeDigits .number s

/-- A fraction, if there is one. -/
def takeFraction (s : List Char) : Except Trouble (List Char × List Char) :=
  match s with
  | '.' :: rest => (takeDigits .point rest).map fun (digits, rest) => ('.' :: digits, rest)
  | _ => .ok ([], s)

/-- An exponent, if there is one. -/
def takeExponent (s : List Char) : Except Trouble (List Char × List Char) :=
  match s with
  | e :: rest =>
    if e == 'e' || e == 'E' then
      let (sign, rest) :=
        match rest with
        | c :: more => if c == '+' || c == '-' then ([c], more) else ([], rest)
        | [] => ([], [])
      (takeDigits .exponent rest).map fun (digits, rest) => (e :: sign ++ digits, rest)
    else .ok ([], s)
  | [] => .ok ([], s)

def takeNumber (s : List Char) : Except Trouble (List Char × List Char) := do
  let (sign, s) :=
    match s with
    | '-' :: rest => (['-'], rest)
    | _ => ([], s)
  let (whole, s) ← takeWhole s
  let (fraction, s) ← takeFraction s
  let (exponent, s) ← takeExponent s
  return (sign ++ whole ++ fraction ++ exponent, s)

/-- The rest of a word. -/
def takeWord (name : String) : List Char → List Char → Except Trouble (List Char)
  | [], s => .ok s
  | c :: more, s =>
    match s with
    | x :: rest => if x == c then takeWord name more rest else wrong (.word name c) s
    | [] => wrong (.word name c) s

/-! ### Values -/

/-- A value as it is written: numbers are kept in digits. -/
inductive Written
  | null
  | flag (value : Bool)
  | number (digits : List Char)
  | text (value : String)
  | list (items : List Written)
  | object (entries : List (String × Written))
  deriving Repr

/-- How deep values can stand in each other. -/
def depthLimit : Nat := 10000

mutual
/-- A value inside of `depth` others. -/
def takeValue : Nat → Nat → List Char → Except Trouble (Written × List Char)
  | 0, _, _ => .error .ended
  | fuel + 1, depth, s =>
    match skip s with
    | [] => .error .ended
    | c :: rest =>
      if c == '\x7b' then
        if depthLimit ≤ depth then wrong .depth (c :: rest)
        else
          match skip rest with
          | '\x7d' :: rest => .ok (.object [], rest)
          | s => (takeEntries fuel (depth + 1) [] s).map fun (entries, rest) => (.object entries, rest)
      else if c == '[' then
        if depthLimit ≤ depth then wrong .depth (c :: rest)
        else
          match skip rest with
          | ']' :: rest => .ok (.list [], rest)
          | s => (takeItems fuel (depth + 1) [] s).map fun (items, rest) => (.list items, rest)
      else if c == '"' then
        (takeString (rest.length + 1) [] rest).map fun (t, rest) => (.text t, rest)
      else if c == '-' || c.isDigit then
        (takeNumber (c :: rest)).map fun (digits, rest) => (.number digits, rest)
      else if c == 't' then (takeWord "true" ['r', 'u', 'e'] rest).map fun rest => (.flag true, rest)
      else if c == 'f' then
        (takeWord "false" ['a', 'l', 's', 'e'] rest).map fun rest => (.flag false, rest)
      else if c == 'n' then (takeWord "null" ['u', 'l', 'l'] rest).map fun rest => (.null, rest)
      else wrong .value (c :: rest)

/-- The items of a list from one of them on. -/
def takeItems : Nat → Nat → List Written → List Char → Except Trouble (List Written × List Char)
  | 0, _, _, _ => .error .ended
  | fuel + 1, depth, items, s => do
    let (item, rest) ← takeValue fuel depth s
    match skip rest with
    | ',' :: rest => takeItems fuel depth (item :: items) rest
    | ']' :: rest => return ((item :: items).reverse, rest)
    | rest => wrongOrEnd .afterItem rest

/-- The entries of an object from one of them on. -/
def takeEntries : Nat → Nat → List (String × Written) → List Char →
    Except Trouble (List (String × Written) × List Char)
  | 0, _, _, _ => .error .ended
  | fuel + 1, depth, entries, s =>
    match skip s with
    | '"' :: rest => do
      let (name, rest) ← takeString (rest.length + 1) [] rest
      match skip rest with
      | ':' :: rest =>
        let (value, rest) ← takeValue fuel depth rest
        match skip rest with
        | ',' :: rest => takeEntries fuel depth ((name, value) :: entries) rest
        | '\x7d' :: rest => return (((name, value) :: entries).reverse, rest)
        | rest => wrongOrEnd .afterEntry rest
      | rest => wrongOrEnd .afterName rest
    | rest => wrongOrEnd .name rest
end

/-- The value that a text is. -/
def read (s : List Char) : Except Trouble Written := do
  let (value, rest) ← takeValue (2 * s.length + 2) 0 s
  match skip rest with
  | [] => return value
  | rest => wrong .afterAll rest

mutual
/-- The value that was written. Of several entries with one name the last counts. -/
def Written.toValue : Written → Except Trouble Value
  | .null => .ok .null
  | .flag b => .ok (.flag b)
  | .number digits =>
    match Real.parse? digits with
    | some r => .ok (.real r)
    | none => .error (.tooLarge (String.ofList digits))
  | .text s => .ok (.text s)
  | .list items => (itemValues items).map .list
  | .object entries => (entryValues [] entries).map (.map true)

def itemValues : List Written → Except Trouble (List Value)
  | [] => .ok []
  | item :: rest => do
    let value ← item.toValue
    return value :: (← itemValues rest)

def entryValues (found : List (Value × Value)) :
    List (String × Written) → Except Trouble (List (Value × Value))
  | [] => .ok found
  | (name, written) :: rest => do
    let value ← written.toValue
    entryValues (Value.insert (.text name) value found) rest
end

/-- The entries of the object that a text is; `null` counts as an empty one. -/
def parse (bytes : List UInt8) : Except Trouble (List (Value × Value)) := do
  match ← read (Text.Octets.ofBytes bytes) with
  | .object entries => entryValues [] entries
  | .null => return []
  | .flag _ => throw (.noObject "bool")
  | .number _ => throw (.noObject "number")
  | .text _ => throw (.noObject "string")
  | .list _ => throw (.noObject "array")

end TapeMachine.Format.Json
