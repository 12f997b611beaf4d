import TapeMachine.Command.Inspect
import TapeMachine.Command.Repl
import TapeMachine.CommandLine.Layers
import TapeMachine.CommandLine.Verb

/-! The whole program: from a command line to an exit code.

Wrong flags are found first, then the configuration file is read, then the arguments are counted, and
then the command is run. -/
namespace TapeMachine.CommandLine

open Command (Outcome World)

/-- What the program is called with. -/
structure Call where
  arguments : List String
  vars : Variables
  /-- What showing a viewer fails with, if it does. -/
  screen : Option Fault := none

/-- Ends the program because of its command line. -/
def refuse (w : World) (misuse : Misuse) : Outcome :=
  ⟨1, w.tell ("Error: " ++ misuse.message ++ "\n"), none⟩

/-- Reads the configuration file: the one that was named, or the usual one. A named one that cannot
be read ends the program; the usual one is then left out. -/
def configure (call : Call) (flags : Parsed) (w : World) :
    Except Outcome (Configuration × World) :=
  let named := (flags.value? "config").getD ""
  let used (path : String) (c : Configuration) := (c, w.tell ("Using config file: " ++ path ++ "\n"))
  if named ≠ "" then
    match Configuration.ofFile w.disk call.vars named with
    | .ok c => .ok (used named c)
    | .error fault =>
      .error ⟨1, w.tell ("Error reading config file: " ++ fault.message ++ "\n"), none⟩
  else if call.vars.value "HOME" = "" then .error ⟨1, w.tell "Error: $HOME is not defined\n", none⟩
  else
    match Configuration.usualFile? w.disk call.vars with
    | none => .ok ([], w)
    | some path =>
      match (w.disk.read path).bind (Configuration.parse .yaml call.vars) with
      | .ok c => .ok (used path c)
      | .error _ => .ok ([], w)

/-- Writes documentation. -/
def document (subject file : String) (w : World) : Outcome :=
  let (fault, disk, output) := Command.Documentation.write subject file w.disk w.output
  let w := { w with disk, output }
  match fault with
  | none => ⟨0, w, none⟩
  | some fault => ⟨2, w.tell ("Error writing documentation: " ++ fault.message ++ "\n"), none⟩

/-- Runs a command with its arguments. -/
def perform (fuel : Nat) (call : Call) (verb : Verb) (flags : Parsed) (s : Command.Settings)
    (w : World) : Option Outcome :=
  let argument := flags.arguments.head?.getD ""
  match verb with
  | .plain => if flags.arguments.isEmpty then Command.repl fuel s w else Command.run fuel s argument w
  | .run => Command.run fuel s argument w
  | .repl => Command.repl fuel s w
  | .inspect => Command.inspect fuel s argument call.screen w
  | .tools => some ⟨0, w, none⟩
  | .docs => some (document argument ((flags.value? "output").getD "") w)

/-- Whether only help is asked for. -/
def wantsHelp (verb : Verb) (flags : Parsed) : Bool :=
  verb = .tools || flags.value? "help" = some "true"

/-- Runs the program, with at most `fuel` steps for each turn. -/
def execute (fuel : Nat) (call : Call) (w : World) : Option Outcome :=
  let (verb, arguments) := Verb.find call.arguments
  match Parsed.parse (Verb.helpFlag :: verb.flags) arguments with
  | .error misuse => some (refuse w misuse)
  | .ok flags =>
    if wantsHelp verb flags then some ⟨0, w, none⟩
    else
      match configure call flags w with
      | .error outcome => some outcome
      | .ok (configuration, w) =>
        match verb.objection? flags.arguments with
        | some misuse => some (refuse w misuse)
        | none =>
          perform fuel call verb flags (Layers.settings ⟨flags, call.vars, configuration⟩) w

end TapeMachine.CommandLine
