import TapeMachine.Text.Padding

/-! The instruction set: eight bytes; every other byte does nothing. -/
namespace TapeMachine

inductive Instruction
  | right
  | left
  | increment
  | decrement
  | output
  | input
  | loop
  | endLoop
  deriving DecidableEq, Repr

namespace Instruction

/-- The instructions, in the order in which they are documented. -/
def all : List Instruction := [.right, .left, .increment, .decrement, .output, .input, .loop, .endLoop]

def symbol : Instruction → Char
  | .right => '>'
  | .left => '<'
  | .increment => '+'
  | .decrement => '-'
  | .output => '.'
  | .input => ','
  | .loop => '['
  | .endLoop => ']'

def name : Instruction → String
  | .right => "right"
  | .left => "left"
  | .increment => "increment"
  | .decrement => "decrement"
  | .output => "output"
  | .input => "input"
  | .loop => "loop"
  | .endLoop => "end loop"

def description : Instruction → String
  | .right => "Move the cell pointer one cell right, wrapping to cell 0 after the last cell"
  | .left => "Move the cell pointer one cell left, wrapping to the last cell before cell 0"
  | .increment => "Add 1 to the current cell, wrapping to 0 past the maximum cell value"
  | .decrement => "Subtract 1 from the current cell, wrapping to the maximum cell value below 0"
  | .output => "Write the low byte of the current cell to the output"
  | .input => "Read one byte into the current cell. On end of input the eof policy applies"
  | .loop => "If the current cell is 0, jump past the matching ']'"
  | .endLoop => "If the current cell is not 0, jump back to the matching '['"

/-- The instruction that a byte stands for. -/
def ofByte? (b : UInt8) : Option Instruction :=
  if b = 0x3e then some .right
  else if b = 0x3c then some .left
  else if b = 0x2b then some .increment
  else if b = 0x2d then some .decrement
  else if b = 0x2e then some .output
  else if b = 0x2c then some .input
  else if b = 0x5b then some .loop
  else if b = 0x5d then some .endLoop
  else none

/-- One line of the reference: symbol, name in a column of ten, description. -/
def summary (i : Instruction) : String :=
  "  " ++ String.singleton i.symbol ++ "  "
    ++ String.ofList (Text.padRight 10 ' ' i.name.toList) ++ " " ++ i.description ++ "\n"

/-- The reference of the whole set. -/
def reference : String :=
  "Brainfuck instruction set\n\n" ++ String.join (all.map summary)
    ++ "\nAny other byte is a no-op.\n"

end Instruction

/-- Whether a byte does something. -/
def isInstruction (b : UInt8) : Bool := (Instruction.ofByte? b).isSome

/-- How many bytes of a source do something. -/
def instructionCount (source : List UInt8) : Nat := source.countP isInstruction

end TapeMachine
