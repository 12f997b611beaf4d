import TapeMachine.Prompt.Line
import TapeMachine.Text.Utf8

/-! The history of a prompt: the last thousand lines. -/
namespace TapeMachine.Prompt

abbrev History := List (List UInt8)

namespace History

/-- The most lines kept. -/
def limit : Nat := 1000

/-- Adds a line at the end, dropping the first one if there are too many. -/
def add (h : History) (line : List UInt8) : History :=
  let h := h ++ [line]
  if limit < h.length then h.drop 1 else h

/-- Adds a line unless it is the last one already. -/
def remember (h : History) (line : List UInt8) : History :=
  if h.getLast? = some line then h else h.add line

/-- Reads at most `lines` lines of a saved history, up to the first one that is too long or not a
text. -/
def loadFrom : Nat → History → Feed → History
  | 0, h, _ => h
  | lines + 1, h, f =>
    match nextPiece f with
    | (.error _, _) => h
    | (.ok (_, true), _) => h
    | (.ok (line, false), f) =>
      if (Text.Utf8.decode? line).isSome then loadFrom lines (h.add line) f else h

/-- The history that a file holds. -/
def load (content : List UInt8) : History :=
  loadFrom (content.length + 1) [] { source := { data := content } }

/-- The content of the file for a history: one line each. -/
def save (h : History) : List UInt8 := h.flatMap (· ++ [newline])

end History
end TapeMachine.Prompt
