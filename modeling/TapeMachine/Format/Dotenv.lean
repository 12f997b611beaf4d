import TapeMachine.Text.Blank
import TapeMachine.Text.Utf8
import TapeMachine.Value

/-! Lines that set variables.

A line is a name, an equals sign and a value, which may stand in quotes and may then go over several
lines. A value can use variables of the environment and those that were set before, unless it stands
in single quotes. -/
namespace TapeMachine.Format.Dotenv

inductive Trouble
  | openQuote
  | unknownForm (line : String)
  | unsetVariable (line : String)
  deriving DecidableEq, Repr

def Trouble.message : Trouble → String
  | .openQuote => "missing quotes"
  | .unknownForm line => "line \x60" ++ line ++ "\x60 doesn't match format"
  | .unsetVariable line => "line \x60" ++ line ++ "\x60 has an unset variable"

abbrev Settings := List (String × String)

/-- Sets a variable. -/
def Settings.put (s : Settings) (name value : String) : Settings :=
  (name, value) :: s.filter fun (n, _) => n != name

/-! ### Lines -/

/-- The lines of a text. Both line feeds and carriage returns end lines, and both together one. -/
def lines : List Char → List Char → List (List Char)
  | line, [] => [line.reverse]
  | line, '\r' :: '\n' :: rest => line.reverse :: lines [] rest
  | line, c :: rest =>
    if c == '\r' || c == '\n' then line.reverse :: lines [] rest else lines (c :: line) rest

/-- The part of a text in front of the last quote, if there is one. -/
def beforeLast? (quote : Char) (s : List Char) : Option (List Char) :=
  match s.reverse.dropWhile (· != quote) with
  | [] => none
  | _ :: before => some before.reverse

/-- The quote that a line opens and does not close. -/
def openQuote? (line : List Char) : Option Char :=
  let split (c : Char) : Option (List Char × List Char) :=
    if line.contains c then some (line.takeWhile (· != c), (line.dropWhile (· != c)).drop 1) else none
  match (split '=').or (split ':') with
  | some (_ :: _, rest) =>
    match Text.trim rest with
    | quote :: value =>
      if quote != '"' && quote != '\'' then none
      else
        match beforeLast? quote (Text.trim value) with
        | some before =>
          if (quote :: value).drop before.length |>.head? |>.any (· == '\\') then some quote else none
        | none => some quote
    | [] => none
  | _ => none

/-- Adds the lines up to the one that has the closing quote. -/
def untilQuote? (quote : Char) (line : List Char) :
    List (List Char) → Option (List Char × List (List Char))
  | [] => none
  | next :: rest =>
    let line := line ++ '\n' :: next
    match beforeLast? quote next with
    | some before =>
      if before.getLast? == some '\\' then untilQuote? quote line rest else some (line, rest)
    | none => untilQuote? quote line rest

/-! ### The form of a line -/

def isSpace (c : Char) : Bool := c == ' ' || c == '\t' || c == '\n' || c == '\x0c' || c == '\r'

def isNameCharacter (c : Char) : Bool := c.isAlphanum || c == '_' || c == '.'

/-- Whether nothing follows a value but a comment. -/
def isEnd (s : List Char) : Bool :=
  match s.dropWhile isSpace with
  | [] => true
  | c :: rest => c == '#' && !rest.contains '\n'

/-- A value between quotes: up to the last quote behind which the line can end. `before` is what
stands in front of `s`, in reverse. -/
def quoted? (quote : Char) (before : List Char) : List Char → Option (List Char)
  | [] => none
  | c :: rest =>
    match quoted? quote (c :: before) rest with
    | some found => some found
    | none => if c == quote && isEnd rest then some (c :: before).reverse else none

/-- The value of a line. -/
def value? (s : List Char) : Option (List Char) :=
  let inQuotes :=
    match s with
    | quote :: rest => if quote == '"' || quote == '\'' then quoted? quote [quote] rest else none
    | [] => none
  match inQuotes with
  | some found => some found
  | none =>
    let plain := s.takeWhile fun c => c != '#' && c != '\n'
    if !plain.isEmpty && isEnd (s.drop plain.length) then some plain
    else if isEnd s then some []
    else none

/-- The value behind a colon and at least one blank, with as few blanks left out as possible. -/
def afterColon? : List Char → Option (List Char)
  | [] => none
  | c :: rest => if isSpace c then (value? rest).or (afterColon? rest) else none

/-- The name and the value of a line that begins with the name. -/
def assignment? (s : List Char) : Option (List Char × List Char) :=
  let name := s.takeWhile isNameCharacter
  let rest := s.drop name.length
  if name.isEmpty then none
  else
    match rest.dropWhile isSpace, rest with
    | '=' :: behind, _ => (value? (behind.dropWhile isSpace)).map (name, ·)
    | _, ':' :: behind => (afterColon? behind).map (name, ·)
    | _, _ => none

/-- The name and the value of a line. The word `export` may stand in front. -/
def form? (line : List Char) : Option (List Char × List Char) :=
  let s := line.dropWhile isSpace
  let behind := s.drop 6
  let exported :=
    if s.take 6 == "export".toList && behind.head?.any isSpace then
      assignment? (behind.dropWhile isSpace)
    else none
  exported.or (assignment? s)

/-! ### Values -/

/-- Removes the backslashes before all characters but dollar signs. -/
def unescape : List Char → List Char
  | '\\' :: c :: rest => if c == '$' then '\\' :: c :: unescape rest else c :: unescape rest
  | c :: rest => c :: unescape rest
  | [] => []

def isVariableCharacter (c : Char) : Bool := c.isUpper || c.isDigit || c == '_'

/-- The name behind a dollar sign and how many characters it takes. It may stand in braces. -/
def nameBehind (s : List Char) : Option String × Nat :=
  let opening := if s.head? == some '\x7b' then 1 else 0
  let name := (s.drop opening).takeWhile isVariableCharacter
  let size := opening + name.length
  let closing := if (s.drop size).head? == some '\x7d' then 1 else 0
  (if name.isEmpty then none else some (String.ofList name), size + closing)

/-- Replaces the variables in a value. A backslash keeps a dollar sign as it is. -/
def expand (get : String → String) (s : List Char) : List Char :=
  match s with
  | [] => []
  | c :: rest =>
    if c == '\\' && rest.head? == some '$' then
      let n := (nameBehind (rest.drop 1)).2
      rest.take (1 + n) ++ expand get (rest.drop (1 + n))
    else if c == '$' then
      match nameBehind rest with
      | (some name, n) => (get name).toList ++ expand get (rest.drop n)
      | (none, n) => c :: rest.take n ++ expand get (rest.drop n)
    else c :: expand get rest
termination_by s.length
decreasing_by all_goals (simp only [List.length_cons, List.length_drop]; omega)

/-- A value without its quotes and with its variables replaced. -/
def evaluate (get : String → String) (value : List Char) : List Char :=
  let value := Text.trim value
  let isQuoted (quote : Char) : Bool :=
    2 ≤ value.length && value.head? == some quote && value.getLast? == some quote
  let inner := (value.drop 1).dropLast
  if isQuoted '\'' then inner
  else if isQuoted '"' then
    let text := ((String.ofList inner).replace "\\n" "\n").replace "\\r" "\r"
    expand get (unescape text.toList)
  else expand get value

/-! ### Reading -/

/-- The trouble with a line of no known form. -/
def objection (line : List Char) (set : Settings) : Trouble :=
  let trimmed := Text.trim line
  let behind := trimmed.dropWhile (· != ' ')
  if trimmed.take 6 == "export".toList && !behind.isEmpty
      && (set.lookup (String.ofList (behind.drop 1))).isNone then
    .unsetVariable (String.ofList trimmed)
  else .unknownForm (String.ofList line)

/-- Deals with one line, which can have become several. -/
def takeLine (environment : Settings) (set : Settings) (line : List Char) :
    Except Trouble Settings :=
  match form? line with
  | none => .error (objection line set)
  | some (name, value) =>
    let get (name : String) : String := ((environment.lookup name).or (set.lookup name)).getD ""
    .ok (set.put (String.ofList name) (String.ofList (evaluate get value)))

def takeLines (environment : Settings) :
    Nat → Settings → List (List Char) → Except Trouble Settings
  | 0, set, _ => .ok set
  | _, set, [] => .ok set
  | fuel + 1, set, line :: rest => do
    let line := Text.trim line
    if line.isEmpty || line.head? == some '#' then takeLines environment fuel set rest
    else
      match openQuote? line with
      | none =>
        let set ← takeLine environment set line
        takeLines environment fuel set rest
      | some quote =>
        match untilQuote? quote line rest with
        | none => throw .openQuote
        | some (line, rest) =>
          let set ← takeLine environment set line
          takeLines environment fuel set rest

/-- The variables that a text sets. A mark of the byte order in front is left out. -/
def parse (environment : Settings) (bytes : List UInt8) : Except Trouble (List (Value × Value)) := do
  let text := Text.Utf8.decode bytes
  let text := if text.head? == some '\ufeff' then text.drop 1 else text
  let all := lines [] text
  let set ← takeLines environment (all.length + 1) [] all
  return set.map fun (name, value) => (.text name, .text value)

end TapeMachine.Format.Dotenv
