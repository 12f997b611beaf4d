import TapeMachine.Command.Documentation
import TapeMachine.Command.Settings
import TapeMachine.CommandLine.Configuration
import TapeMachine.CommandLine.Flag
import TapeMachine.CommandLine.Variables

/-! Where settings come from: a flag, else a variable that is not empty, else the configuration file,
else the usual value. -/
namespace TapeMachine.CommandLine

structure Layers where
  flags : Parsed
  vars : Variables
  configuration : Configuration

/-- Goes from the end of a text over zeros and points to a point with a zero behind it, and gives what
stands before that point. The text and the result are in reverse. -/
def beforeZeros : Bool → List Char → Option (List Char)
  | _, [] => none
  | zero, c :: rest =>
    if c == '.' then (if zero then some rest else beforeZeros zero rest)
    else if c == '0' then beforeZeros true rest
    else none

/-- A text without a point and the zeros behind it. -/
def trimZeros (s : List Char) : List Char :=
  match beforeZeros false s.reverse with
  | some rest => rest.reverse
  | none => s

/-- A value as a number; what is none counts as zero. -/
def numberOf : Value → Int
  | .integer i => Word.wrap i
  | .real r =>
    match r with
    | .finite negative mantissa exponent => Real.toWord negative mantissa exponent
    | _ => Word.least
  | .flag b => if b then 1 else 0
  | .text s => ((Text.Numeral.free (trimZeros s.toList)).toOption).getD 0
  | _ => 0

/-- A value as a text; what has none counts as empty. -/
def textOf : Value → String
  | .integer i => toString i
  | .real r => r.render
  | .flag b => if b then "true" else "false"
  | .time t => t.render
  | .text s => s
  | _ => ""

/-- A value as a truth value. -/
def truthOf : Value → Bool
  | .integer i => i != 0
  | .real r =>
    match r with
    | .finite _ mantissa _ => mantissa != 0
    | _ => true
  | .flag b => b
  | .text s => (truth? s).getD false
  | _ => false

namespace Layers

/-- The value of a setting in the configuration file. -/
def configured? (l : Layers) (key : String) : Option Value :=
  match l.configuration.lookup key with
  | some .null => none
  | found => found

/-- The value of a setting, if one is given. -/
def find? (l : Layers) (key : String) : Option Value :=
  match l.flags.value? key, l.vars.lookup (Command.Documentation.variableName key) with
  | some value, _ => some (.text value)
  | none, some value => if value = "" then l.configured? key else some (.text value)
  | none, none => l.configured? key

/-- The settings of a command. -/
def settings (l : Layers) : Command.Settings :=
  let usual : Command.Settings := {}
  let number (key : String) (default : Int) : Int := ((l.find? key).map numberOf).getD default
  let text (key default : String) : String := ((l.find? key).map textOf).getD default
  { tapeSize := number "tape-size" usual.tapeSize
    cellWidth := number "cell-width" usual.cellWidth
    eof := text "eof" usual.eof
    maxSteps := number "max-steps" usual.maxSteps
    prompt := text "prompt" usual.prompt
    historyFile := text "history-file" usual.historyFile
    dumpState := ((l.find? "dump-state").map truthOf).getD usual.dumpState
    stateFile := text "state-file" usual.stateFile
    logLevel := text "log-level" usual.logLevel
    logFile := text "log-file" usual.logFile }

end Layers
end TapeMachine.CommandLine
