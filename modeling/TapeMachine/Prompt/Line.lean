import TapeMachine.Stream.Feed

/-! Lines of a byte stream. -/
namespace TapeMachine.Prompt

/-- The byte that ends a line. -/
def newline : UInt8 := 10

/-- The byte that may stand before it. -/
def carriageReturn : UInt8 := 13

/-- A line without its last byte, if that is `b`. -/
def dropLastIf (b : UInt8) (line : List UInt8) : List UInt8 :=
  if line.getLast? = some b then line.dropLast else line

/-- A line without its ending: one newline, and then one carriage return. -/
def trimEnding (line : List UInt8) : List UInt8 :=
  dropLastIf carriageReturn (dropLastIf newline line)

/-- The next line. At the end of the input what is left is a line as well, unless it is empty; before
any other ending it is dropped. -/
def nextLine (f : Feed) : Except Fault (List UInt8) × Feed :=
  match f.readThrough newline with
  | (line, none, f) => (.ok (trimEnding line), f)
  | (line, some fault, f) =>
    if fault.isA .endOfInput && !line.isEmpty then (.ok (trimEnding line), f)
    else (.error fault, f)

/-- The next line as far as it fits into the buffer; a longer one is handed out in pieces. The
carriage return goes only together with its newline, and what comes before any ending is a line. -/
def nextPiece (f : Feed) : Except Fault (List UInt8 × Bool) × Feed :=
  match f.readSlice newline with
  | (piece, .full, f) =>
    if piece.getLast? = some carriageReturn then
      (.ok (piece.dropLast, true), { f with buffer := carriageReturn :: f.buffer })
    else (.ok (piece, true), f)
  | (line, .marked, f) => (.ok (trimEnding line, false), f)
  | (line, .ended fault, f) =>
    if line.isEmpty then (.error fault, f) else (.ok (line, false), f)

/-- Lines of a buffered input, with prompts written to a text of their own, if there is one. -/
structure LineReader where
  feed : Feed
  written : Option String := none

/-- Prompts and reads the next line. -/
def LineReader.ask (r : LineReader) (prompt : String) : Except Fault (List UInt8) × LineReader :=
  let (answer, feed) := nextLine r.feed
  (answer, ⟨feed, r.written.map (· ++ prompt)⟩)

end TapeMachine.Prompt
