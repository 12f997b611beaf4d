import TapeMachine.Format.Hcl.Lexer
import TapeMachine.Format.Hcl.Node
import TapeMachine.Format.Json
import TapeMachine.Value

/-! Objects in HCL.

Keys have values behind equals signs, or objects, which are collected in lists. A key that comes again
keeps the type of its first value. A text that begins with a brace is an object in JSON. -/
namespace TapeMachine.Format.Hcl

/-! ### Strings -/

/-- A part of a string up to the brace that closes it, as it is. -/
def takeBraced : Nat → List Char → List Char × List Char
  | _, [] => ([], [])
  | 0, s => ([], s)
  | braces, c :: rest =>
    let braces := if c == '\x7b' then braces + 1 else if c == '\x7d' then braces - 1 else braces
    let (inner, rest) := takeBraced braces rest
    (c :: inner, rest)

/-- The character that a number of digits stands for. -/
def codeOf (base : Nat) (digits : List Char) : Char :=
  Char.ofNat (digits.foldl (fun n c => n * base + (Text.Numeral.digit? c).getD 0) 0)

/-- A string without its quotes and escapes. Nothing is changed between braces behind a dollar sign. -/
def unquote : Nat → List Char → List Char
  | 0, _ => []
  | _, [] => []
  | fuel + 1, '$' :: '\x7b' :: rest =>
    let (inner, rest) := takeBraced 1 rest
    '$' :: '\x7b' :: inner ++ unquote fuel rest
  | fuel + 1, '\\' :: c :: rest =>
    if c == 'x' then codeOf 16 (rest.take 2) :: unquote fuel (rest.drop 2)
    else if c == 'u' then codeOf 16 (rest.take 4) :: unquote fuel (rest.drop 4)
    else if c == 'U' then codeOf 16 (rest.take 8) :: unquote fuel (rest.drop 8)
    else if c.isDigit then codeOf 8 (c :: rest.take 2) :: unquote fuel (rest.drop 2)
    else
      match [('a', 7), ('b', 8), ('f', 12), ('n', 10), ('r', 13), ('t', 9), ('v', 11)].lookup c with
      | some n => Char.ofNat n :: unquote fuel rest
      | none => c :: unquote fuel rest
  | fuel + 1, c :: rest => c :: unquote fuel rest

/-- The lines between the marks of a text of several lines. If the marks are set off by a dash, the
indentation of the last mark is taken off every line that has it, if all have it. -/
def innerLines (s : List Char) : List Char :=
  let lines := (String.ofList s).splitOn "\n"
  let inner := (lines.drop 1).dropLast.dropLast
  let last := (lines.dropLast.getLast?).getD ""
  if (s.drop 2).head? == some '-' then
    let margin := last.toList.takeWhile fun c => c == ' ' || c == '\t'
    if inner.all fun line => margin.isPrefixOf line.toList then
      (String.join (inner.map fun line => String.ofList (line.toList.drop margin.length) ++ "\n")).toList
    else (String.join (inner.map (· ++ "\n"))).toList
  else (String.join (inner.map (· ++ "\n"))).toList

/-- The text that a word stands for. -/
def Token.content (t : Token) : String :=
  match t.kind with
  | .string => String.ofList (unquote t.text.length ((t.text.drop 1).dropLast))
  | .lines => String.ofList (innerLines t.text)
  | _ => String.ofList t.text

/-! ### Values -/

/-- Why a text has no value. -/
inductive Fault
  | text (t : Trouble)
  | json (t : Json.Trouble)
  | integer (digits : String) (problem : Text.Numeral.Problem)
  | real (digits : String) (problem : Text.Numeral.Problem)
  deriving DecidableEq, Repr

def Fault.message : Fault → String
  | .text t => t.message
  | .json t => t.message
  | .integer digits problem =>
    "strconv.ParseInt: parsing " ++ Text.Quoted.render digits ++ ": " ++ problem.text
  | .real digits problem =>
    "strconv.ParseFloat: parsing " ++ Text.Quoted.render digits ++ ": " ++ problem.text

def integerOf (digits : String) : Except Fault Value :=
  match Text.Numeral.free digits.toList with
  | .ok i => .ok (.integer i)
  | .error problem => .error (.integer digits problem)

def realOf (digits : String) : Except Fault Value :=
  match Real.parse digits.toList with
  | .ok r => .ok (.real r)
  | .error problem => .error (.real digits problem)

/-- The value of a word. -/
def literalValue (t : Token) : Except Fault Value :=
  match t.kind with
  | .flag => .ok (.flag (t.text == "true".toList))
  | .integer => integerOf (String.ofList t.text)
  | .real => realOf (String.ofList t.text)
  | _ => .ok (.text t.content)

def Node.typeName : Node → String
  | .literal _ => "*ast.LiteralType"
  | .object .. => "*ast.ObjectType"
  | .list .. => "*ast.ListType"

/-- The value of a node where a value of the type of `old` is wanted. -/
def valueLike (path : String) (old : Value) (n : Node) (fresh : Except Fault Value) :
    Except Fault Value :=
  let mismatch (text : String) : Except Fault Value :=
    .error (.text ⟨n.place, path ++ ": " ++ text ++ " " ++ n.typeName⟩)
  match old, n with
  | .text _, .literal t =>
    if [Kind.integer, .string, .lines].contains t.kind then .ok (.text t.content)
    else mismatch "unknown type for string"
  | .text _, _ => mismatch "unknown type for string"
  | .integer _, .literal t =>
    if t.kind = .integer then fresh
    else if t.kind = .string then integerOf t.content
    else mismatch "unknown type"
  | .integer _, _ => mismatch "unknown type"
  | .real _, .literal t =>
    if t.kind = .real || t.kind = .integer then realOf (String.ofList t.text)
    else mismatch "unknown type"
  | .real _, _ => mismatch "unknown type"
  | .flag _, .literal t => if t.kind = .flag then fresh else mismatch "unknown type"
  | .flag _, _ => mismatch "unknown type"
  | .list before, _ =>
    match fresh with
    | .ok (.list items) => .ok (.list (before ++ items))
    | other => other
  | _, _ => fresh

/-- The entries of objects, the keys of which can have several words. -/
def entryValues (path : String) (valueOf : String → Node → Except Fault Value) :
    List Item → List (Value × Value) → Except Fault (List (Value × Value))
  | [], found => .ok found
  | (keys, node) :: rest, found => do
    let name := (keys.head?.map Token.content).getD ""
    let path' := path ++ "." ++ name
    let node :=
      if keys.length ≤ 1 then node else .object node.place [(keys.drop 1, node)]
    let fresh := valueOf path' node
    let value ←
      match Value.find? (.text name) found with
      | some old => valueLike path' old node fresh
      | none => fresh
    entryValues path valueOf rest (Value.insert (.text name) value found)

/-- The value of a node. An object is a list of one mapping, except directly inside of a list. -/
def nodeValue : Nat → Bool → String → Node → Except Fault Value
  | 0, _, _, _ => .ok .null
  | fuel + 1, inList, path, n =>
    match n with
    | .literal t => literalValue t
    | .list _ items => (items.mapM (nodeValue fuel true path)).map .list
    | .object _ items => do
      let entries ← entryValues path (nodeValue fuel false) items []
      return if inList then .map true entries else .list [.map true entries]

mutual
/-- A value in JSON as a value here: objects are lists, and nothing is an empty text. -/
def ofJson : Json.Written → Except Fault Value
  | .null => .ok (.text "")
  | .flag b => .ok (.flag b)
  | .number digits =>
    if digits.all fun c => c.isDigit || c == '-' then integerOf (String.ofList digits)
    else realOf (String.ofList digits)
  | .text s => .ok (.text s)
  | .list items => (ofJsonItems items).map .list
  | .object entries => (ofJsonEntries entries []).map fun entries => .list [.map true entries]

def ofJsonItems : List Json.Written → Except Fault (List Value)
  | [] => .ok []
  | item :: rest => do
    let value ← ofJson item
    return value :: (← ofJsonItems rest)

def ofJsonEntries :
    List (String × Json.Written) → List (Value × Value) → Except Fault (List (Value × Value))
  | [], found => .ok found
  | (name, written) :: rest, found => do
    let value ← ofJson written
    ofJsonEntries rest (Value.insert (.text name) value found)
end

/-- The entries of a text. -/
def parse (bytes : List UInt8) : Except Fault (List (Value × Value)) :=
  let start := (Text.Utf8.decode bytes).dropWhile Text.isBlank
  if start.head? == some '\x7b' then
    match Json.read (Text.Octets.ofBytes bytes) with
    | .error trouble => .error (.json trouble)
    | .ok (.object entries) => ofJsonEntries entries []
    | .ok _ => .ok []
  else
    match readItems (tokens bytes) with
    | .error trouble => .error (.text trouble)
    | .ok items => entryValues "root" (nodeValue (bytes.length + 1) false) items []

end TapeMachine.Format.Hcl
