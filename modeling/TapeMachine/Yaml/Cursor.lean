/-! A place in a text, and the text from there on.

A line ends with a newline, a carriage return, both in that order, or one of the three line ends
beyond ASCII. -/
namespace TapeMachine.Yaml

/-- A place: characters before it, lines before it, characters before it on its line. -/
structure Mark where
  index : Nat := 0
  line : Nat := 0
  column : Nat := 0
  deriving DecidableEq, Repr

structure Cursor where
  rest : List Char
  mark : Mark := {}
  deriving DecidableEq, Repr

def isBlank (c : Char) : Bool := c == ' ' || c == '\t'

def isBreak (c : Char) : Bool :=
  c == '\r' || c == '\n' || c == '\u0085' || c == '\u2028' || c == '\u2029'

namespace Cursor

/-- The character `k` places further on. -/
def peek? (c : Cursor) (k : Nat) : Option Char := c.rest[k]?

/-- Whether the character `k` places further on is `x`. -/
def sees (c : Cursor) (k : Nat) (x : Char) : Bool := c.peek? k == some x

def seesBlank (c : Cursor) (k : Nat) : Bool := (c.peek? k).any isBlank

def seesBreak (c : Cursor) (k : Nat) : Bool := (c.peek? k).any isBreak

def atEnd (c : Cursor) : Bool := c.rest.isEmpty

/-- Whether there is a line end or the end of the text. -/
def seesBreakOrEnd (c : Cursor) (k : Nat) : Bool := (c.peek? k).all isBreak

/-- Whether there is a blank, a line end or the end of the text. -/
def seesSpace (c : Cursor) (k : Nat) : Bool := (c.peek? k).all fun x => isBlank x || isBreak x

/-- Goes on by one character of the line. -/
def skip (c : Cursor) : Cursor :=
  match c.rest with
  | [] => c
  | _ :: rest => ⟨rest, ⟨c.mark.index + 1, c.mark.line, c.mark.column + 1⟩⟩

def skipMany (c : Cursor) (n : Nat) : Cursor :=
  ⟨c.rest.drop n, ⟨c.mark.index + n, c.mark.line, c.mark.column + n⟩⟩

/-- Goes over a line end and tells what it stands for: those of ASCII all stand for a newline. -/
def takeBreak (c : Cursor) : List Char × Cursor :=
  match c.rest with
  | [] => ([], c)
  | '\r' :: '\n' :: rest => (['\n'], ⟨rest, ⟨c.mark.index + 2, c.mark.line + 1, 0⟩⟩)
  | x :: rest =>
    (if x == '\u2028' || x == '\u2029' then [x] else ['\n'],
      ⟨rest, ⟨c.mark.index + 1, c.mark.line + 1, 0⟩⟩)

/-- Takes the characters of the line as long as `p` holds of them. -/
def takeWhile (c : Cursor) (p : Char → Bool) : List Char × Cursor :=
  let word := c.rest.takeWhile fun x => p x && !isBreak x
  (word, c.skipMany word.length)

/-- Whether a line begins here that is marked as the border of a document by three `x`. -/
def seesBorder (c : Cursor) (x : Char) : Bool :=
  c.mark.column == 0 && c.sees 0 x && c.sees 1 x && c.sees 2 x && c.seesSpace 3

def atBorder (c : Cursor) : Bool := c.seesBorder '-' || c.seesBorder '.'

end Cursor
end TapeMachine.Yaml
