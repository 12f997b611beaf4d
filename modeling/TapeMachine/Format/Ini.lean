import TapeMachine.Format.Properties
import TapeMachine.Text.Blank

/-! Sections with a key and a value in each line. -/
namespace TapeMachine.Format.Ini

inductive Trouble
  | openSection (line : String)
  | unnamedSection
  | openKey (line : String)
  | noDelimiter (line : String)
  | unnamedKey (line : String)
  | emptyKey
  | openValue (first last : String)
  deriving DecidableEq, Repr

def Trouble.message : Trouble → String
  | .openSection line => "unclosed section: " ++ line
  | .unnamedSection => "empty section name"
  | .openKey line => "missing closing key quote: " ++ line
  | .noDelimiter line => "key-value delimiter not found: " ++ line
  | .unnamedKey line => "empty key name: " ++ line
  | .emptyKey => "error creating new key: empty key name"
  | .openValue first last =>
    "missing closing key quote from " ++ Text.Quoted.render first ++ " to " ++ Text.Quoted.render last

/-- The lines of a text with their line ends. -/
def lines : List Char → List Char → List (List Char)
  | [], [] => []
  | line, [] => [line.reverse]
  | line, c :: rest =>
    if c == '\n' then (c :: line).reverse :: lines [] rest else lines (c :: line) rest

/-- The part of a text in front of the first mark and the part behind it. -/
abbrev splitAt? := Properties.splitAt?

/-- The part of a text in front of the last mark. -/
def beforeLast? (mark : List Char) (s : List Char) : Option (List Char) :=
  (splitAt? mark.reverse s.reverse).map fun (_, before) => before.reverse

def isDelimiter (c : Char) : Bool := c == '=' || c == ':'

/-- The key of a line and what stands behind its delimiter. A key may stand in quotes. -/
def takeKey (line : List Char) : Except Trouble (List Char × List Char) :=
  let whole := String.ofList line
  let quote :=
    if ['"', '"', '"'].isPrefixOf line && 6 < line.length then ['"', '"', '"']
    else if line.head? == some '"' then ['"']
    else if line.head? == some '\x60' then ['\x60']
    else []
  if quote.isEmpty then
    let key := line.takeWhile fun c => !isDelimiter c
    if key.length = line.length then .error (.noDelimiter whole)
    else if key.isEmpty then .error (.unnamedKey whole)
    else .ok (Text.trim key, line.drop (key.length + 1))
  else
    match splitAt? quote (line.drop quote.length) with
    | none => .error (.openKey whole)
    | some (key, rest) =>
      let gap := rest.takeWhile fun c => !isDelimiter c
      if gap.length = rest.length then .error (.noDelimiter whole)
      else .ok (Text.trim key, rest.drop (gap.length + 1))

/-- A value in quotes over several lines: what stands in front of the closing quote, and the lines
behind it. -/
def untilQuote (quote first value : List Char) :
    List (List Char) → Except Trouble (List Char × List (List Char))
  | [] => .error (.openValue (String.ofList first) "")
  | next :: rest =>
    match beforeLast? quote next with
    | some before => .ok (value ++ before, rest)
    | none =>
      if rest.isEmpty && next.getLast? != some '\n' then
        .error (.openValue (String.ofList first) (String.ofList next))
      else untilQuote quote first (value ++ next) rest

/-- A value that goes on in the lines that follow, as long as they end with a backslash. -/
def continued (value : List Char) : List (List Char) → List Char × List (List Char)
  | [] => (value, [])
  | next :: rest =>
    let next := Text.trim next
    if next.isEmpty then (value, rest)
    else
      let value := value ++ next
      if value.getLast? == some '\\' then continued value.dropLast rest else (value, rest)

/-- The value of a line, and the lines behind it. -/
def takeValue (line : List Char) (rest : List (List Char)) :
    Except Trouble (List Char × List (List Char)) :=
  let s := line.dropWhile Text.isBlank
  let quote :=
    if ['"', '"', '"'].isPrefixOf s && 3 < s.length then ['"', '"', '"']
    else if s.head? == some '\x60' then ['\x60']
    else []
  if s.isEmpty then .ok ([], rest)
  else if !quote.isEmpty then
    match beforeLast? quote (s.drop quote.length) with
    | some value => .ok (value, rest)
    | none => untilQuote quote s (s.drop quote.length) rest
  else
    let s := Text.trim s
    if s.getLast? == some '\\' then .ok (continued s.dropLast rest)
    else
      let s := Text.trim (s.takeWhile fun c => c != '#' && c != ';')
      let isQuoted (quote : Char) : Bool :=
        2 ≤ s.length && s.head? == some quote && s.getLast? == some quote
      .ok (if isQuoted '"' || isQuoted '\'' then (s.drop 1).dropLast else s, rest)

/-- Deals with the lines of a section. -/
def takeLines : Nat → String → List (Value × Value) → List (List Char) →
    Except Trouble (List (Value × Value))
  | 0, _, entries, _ => .ok entries
  | _, _, entries, [] => .ok entries
  | fuel + 1, name, entries, line :: rest =>
    let line := line.dropWhile Text.isBlank
    match line with
    | [] => takeLines fuel name entries rest
    | c :: _ =>
      if c == '#' || c == ';' then takeLines fuel name entries rest
      else if c == '[' then
        match beforeLast? [']'] (line.drop 1) with
        | none => .error (.openSection (String.ofList line))
        | some [] => .error .unnamedSection
        | some name => takeLines fuel (String.ofList name) entries rest
      else do
        let (key, behind) ← takeKey line
        let (value, rest) ← takeValue behind rest
        if key.isEmpty then throw .emptyKey
        let path := name.splitOn "." ++ [String.ofList key]
        takeLines fuel name (Properties.placeAt path (.text (String.ofList value)) entries) rest

/-- The name of the section before the first one that is named. -/
def firstSection : String := "DEFAULT"

/-- The sections of a text as mappings. -/
def parse (bytes : List UInt8) : Except Trouble (List (Value × Value)) :=
  let text := Text.Utf8.decode bytes
  let text := if text.head? == some '\ufeff' then text.drop 1 else text
  let all := lines [] text
  takeLines (all.length + 1) firstSection [] all

end TapeMachine.Format.Ini
