import TapeMachine.Command.Settings
import TapeMachine.Disk
import TapeMachine.Instruction
import TapeMachine.Stream.Sink
import TapeMachine.Text.Padding
import TapeMachine.Text.Utf8

/-! The documentation that the program carries with it. -/
namespace TapeMachine.Command.Documentation

/-- The variable that holds a setting. -/
def variableName (key : String) : String :=
  String.ofList ("BF_".toList ++ key.toList.map fun c => if c = '-' then '_' else c.toUpper)

def settingLine (key : String) : String :=
  "  " ++ String.ofList (Text.padRight 14 ' ' key.toList) ++ " " ++ variableName key ++ "\n"

/-- What there is to know about settings. -/
def settings : String :=
  "Configuration keys\n\nEvery key can be set as a flag (--key), in $HOME/.bf.yaml or through the\n"
    ++ "BF_KEY environment variable (dashes become underscores).\n\n"
    ++ String.join (Settings.keys.map settingLine)

/-- The documented subjects, in order of their names. -/
def subjects : List (String × String) :=
  [("config", settings), ("instructions", Instruction.reference)]

/-- The text about a subject. -/
def text (subject : String) : Except Fault String :=
  match subjects.lookup subject with
  | some text => .ok (text ++ "\n")
  | none => .error (.told ("unknown module '" ++ subject ++ "'"))

/-- Writes to a sink in one go. -/
def deliver (sink : Sink) (bytes : List UInt8) : Option Fault × Sink :=
  let (failure, sink) := sink.write bytes.toArray
  (failure.map .told, sink)

/-- Writes the text about a subject to a file, or to the standard output if none is named. -/
def write (subject file : String) (disk : Disk) (output : Sink) : Option Fault × Disk × Sink :=
  match text subject with
  | .error fault => (some fault, disk, output)
  | .ok text =>
    let bytes := Text.Utf8.encode text.toList
    if file = "" then
      let (fault, output) := deliver output bytes
      (fault, disk, output)
    else
      match disk.write file bytes with
      | .error fault => (some fault, disk, output)
      | .ok disk => (none, disk, output)

end TapeMachine.Command.Documentation
