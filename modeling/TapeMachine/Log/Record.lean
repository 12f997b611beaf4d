import TapeMachine.Log.Level

/-! Log records and their two written forms: a line of `key=value` pairs, and a line with one object
in the JSON notation. -/
namespace TapeMachine.Log

inductive Value
  | text (s : String)
  | number (i : Int)
  | flag (b : Bool)
  | nothing
  /-- Pairs of numbers, ascending by their first component. -/
  | table (pairs : List (Nat × Nat))
  deriving DecidableEq, Repr

structure Record where
  level : Level
  message : String
  attributes : List (String × Value) := []
  deriving DecidableEq, Repr

/-! ### Pairs -/

/-- Whether a text stands bare in a line: it is not empty, and all of its characters are graphic and
neither blank nor quote nor equals sign. A delete character stands bare too. -/
def isBare (s : String) : Bool :=
  s != "" && s.toList.all fun c =>
    c.toNat == 0x7f || (Text.isGraphic c && c != ' ' && c != '"' && c != '=' && c.toNat != 0xfffd)

/-- A key or value, in quotes if it cannot stand bare. -/
def word (s : String) : String := if isBare s then s else Text.Quoted.render s

def Value.plain : Value → String
  | .text s => s
  | .number i => toString i
  | .flag b => if b then "true" else "false"
  | .nothing => "<nil>"
  | .table pairs =>
    "map[" ++ " ".intercalate (pairs.map fun (a, b) => toString a ++ ":" ++ toString b) ++ "]"

/-- Attributes that are written: one without a key and a value is left out. -/
def Record.written (r : Record) : List (String × Value) :=
  r.attributes.filter fun (key, value) => !(key == "" && value == .nothing)

/-- The record as a line of pairs. -/
def Record.line (r : Record) : String :=
  "level=" ++ r.level.name ++ " msg=" ++ word r.message
    ++ String.join (r.written.map fun (key, value) => " " ++ word key ++ "=" ++ word value.plain)
    ++ "\n"

/-! ### Objects -/

/-- The escape of a character inside a JSON string. -/
def escape (c : Char) : List Char :=
  if c = '"' then ['\\', '"']
  else if c = '\\' then ['\\', '\\']
  else if c = '\n' then ['\\', 'n']
  else if c = '\r' then ['\\', 'r']
  else if c = '\t' then ['\\', 't']
  else if c.toNat < 0x20 || c.toNat = 0x2028 || c.toNat = 0x2029 then
    '\\' :: 'u' :: Text.padLeft 4 '0' (Text.Hex.digits c.toNat)
  else [c]

def jsonText (s : String) : String :=
  String.ofList ('"' :: s.toList.flatMap escape ++ ['"'])

/-- Pairs as members of an object: the keys are ordered as texts. -/
def members (pairs : List (Nat × Nat)) : List (String × Nat) :=
  (pairs.map fun (a, b) => (toString a, b)).mergeSort fun x y => x.1 ≤ y.1

def Value.json : Value → String
  | .text s => jsonText s
  | .number i => toString i
  | .flag b => if b then "true" else "false"
  | .nothing => "null"
  | .table pairs =>
    "\x7b" ++ ",".intercalate ((members pairs).map fun (a, b) => jsonText a ++ ":" ++ toString b)
      ++ "\x7d"

/-- The record as a line with one object. -/
def Record.json (r : Record) : String :=
  "\x7b\"level\":" ++ jsonText r.level.name ++ ",\"msg\":" ++ jsonText r.message
    ++ String.join (r.written.map fun (key, value) => "," ++ jsonText key ++ ":" ++ value.json)
    ++ "\x7d\n"

/-- The records that a threshold lets through; without a threshold none. -/
def admitted (threshold : Option Level) (records : List Record) : List Record :=
  match threshold with
  | none => []
  | some least => records.filter fun r => least ≤ r.level

end TapeMachine.Log
