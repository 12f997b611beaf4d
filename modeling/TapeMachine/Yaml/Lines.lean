import TapeMachine.Yaml.Lexer
import TapeMachine.Yaml.Node

/-! Documents that are a plain list of lines.

Such a document has a line `key: value` for every entry, or a line `key:` with the entries of an inner
mapping below it, each indented by four blanks. Keys and values are single words of letters and
digits, so that no other rule of the format applies and lines can be read one by one. -/
namespace TapeMachine.Yaml.Lines

/-- The complete lines of a text, if it ends with one. -/
def split? : List Char → List Char → Option (List (List Char))
  | [], [] => some []
  | _ :: _, [] => none
  | line, c :: rest =>
    if c = '\n' then (split? [] rest).map (line.reverse :: ·) else split? (c :: line) rest

/-- Whether a text is one word, perhaps with a minus sign in front. -/
def isWord : List Char → Bool
  | '-' :: rest => !rest.isEmpty && rest.all Char.isAlphanum
  | word => !word.isEmpty && word.all Char.isAlphanum

/-- Whether a text can be the key of an entry. -/
def isKey (s : List Char) : Bool := !s.isEmpty && s.all fun c => c.isLower || c == '_'

inductive Line
  | entry (key value : List Char)
  | opening (key : List Char)
  | inner (key value : List Char)
  deriving DecidableEq, Repr

/-- A line at its colon. -/
def atColon (line : List Char) : List Char × List Char :=
  (line.takeWhile (· != ':'), line.dropWhile (· != ':'))

/-- A line that is not indented. -/
def outer? (line : List Char) : Option Line :=
  match atColon line with
  | (key, [':']) => if isKey key && key.length ≤ Lexer.keyLimit then some (.opening key) else none
  | (key, ':' :: ' ' :: value) =>
    if isKey key && key.length ≤ Lexer.keyLimit && isWord value then some (.entry key value)
    else none
  | _ => none

/-- A line without its indentation. -/
def inner? (line : List Char) : Option Line :=
  match atColon line with
  | (key, ':' :: ' ' :: value) =>
    if isWord key && key.length ≤ Lexer.keyLimit && isWord value then some (.inner key value)
    else none
  | _ => none

def classify? (line : List Char) : Option Line :=
  match line with
  | ' ' :: ' ' :: ' ' :: ' ' :: rest => inner? rest
  | _ => outer? line

/-- The node of a word in the line with the given number. -/
def word (number : Nat) (s : List Char) : Node := Node.plain number (String.ofList s)

/-- The entries of inner lines at the front, and the outer entries behind them. -/
def gather? : Nat → List Line → Option (List (Node × Node) × List (Node × Node))
  | _, [] => some ([], [])
  | number, line :: rest =>
    match gather? (number + 1) rest, line with
    | some (inner, entries), .inner key value =>
      some ((word number key, word number value) :: inner, entries)
    | some (inner, entries), .opening key =>
      if inner.isEmpty then none
      else some ([], (word number key, .mapping (number + 1) "!!map" inner) :: entries)
    | some ([], entries), .entry key value =>
      some ([], (word number key, word number value) :: entries)
    | _, _ => none

/-- Reads a document of this kind. -/
def read? (text : List Char) : Option Node :=
  match ((split? [] text).bind fun lines => lines.mapM classify?).bind (gather? 1) with
  | some ([], entry :: entries) => some (.mapping 1 "!!map" (entry :: entries))
  | _ => none

end TapeMachine.Yaml.Lines
