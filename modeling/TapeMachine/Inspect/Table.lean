import TapeMachine.Inspect.Window
import TapeMachine.Text.Hex
import TapeMachine.Text.Printable

/-! The table that shows a window: a header and one line for each row.

A table is drawn cell by cell on a sheet. A sheet grows as far as cells are set on it, and keeps what
is on it until it is cleared. -/
namespace TapeMachine.Inspect

inductive Colour
  | yellow
  | green
  | white
  /-- The colour of a place where nothing was set. -/
  | unset
  deriving DecidableEq, Repr

def Colour.name : Colour → String
  | .yellow => "yellow"
  | .green => "green"
  | .white => "white"
  | .unset => "default"

structure Cell where
  text : String := ""
  colour : Colour := .unset
  deriving DecidableEq, Repr

/-! ### Sheets -/

/-- The rows of a sheet, each with its cells. -/
abbrev Sheet := List (List Cell)

/-- Puts `v` at place `i` of a list, which is filled up with `blank` where it is too short. -/
def putAt {α : Type} (blank v : α) : Nat → List α → List α
  | 0, l => v :: l.tail
  | i + 1, l => l.headD blank :: putAt blank v i l.tail

namespace Sheet

/-- Takes everything off. -/
def clear (_ : Sheet) : Sheet := []

def setCell (s : Sheet) (row column : Nat) (c : Cell) : Sheet :=
  putAt [] (putAt {} c column (s.getD row [])) row s

/-- Sets the first cells of a row to texts of one colour. -/
def setTexts (s : Sheet) (row : Nat) (colour : Colour) (texts : List String) : Sheet :=
  texts.zipIdx.foldl (fun s entry => s.setCell row entry.2 ⟨entry.1, colour⟩) s

end Sheet

/-! ### Lines -/

def headers : List String := ["Cell", "Dec", "Hex", "Char"]

/-- The texts of a row on a tape with cells of `width` bits: four bits make a hexadecimal digit. -/
def Row.texts (width : Int) (r : Row) : List String :=
  [(if r.current then ">" else " ") ++ toString r.address,
    toString r.value,
    Text.Hex.render r.value (width.tdiv 4),
    Text.printable r.value.toUInt8]

def Row.colour (r : Row) : Colour := if r.current then .green else .white

/-- Draws the table of some rows in place of what was on the sheet. -/
def Sheet.fill (s : Sheet) (rows : List Row) (width : Int) : Sheet :=
  rows.zipIdx.foldl (fun s entry => s.setTexts (entry.2 + 1) entry.1.colour (entry.1.texts width))
    (s.clear.setTexts 0 .yellow headers)

end TapeMachine.Inspect
