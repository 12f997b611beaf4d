import TapeMachine.CommandLine.Flag
import TapeMachine.Command.Documentation

/-! The commands of the program, and which of them a command line means.

The first argument that is neither a flag nor the value of one names the command. -/
namespace TapeMachine.CommandLine

inductive Verb
  /-- No command by name: a file to run, or the prompt loop. -/
  | plain
  | run
  | repl
  | inspect
  | tools
  | docs
  deriving DecidableEq, Repr

namespace Verb

/-- The full name of a command. -/
def path : Verb → String
  | .plain => "bf"
  | .run => "bf run"
  | .repl => "bf repl"
  | .inspect => "bf inspect"
  | .tools => "bf tools"
  | .docs => "bf tools docs"

/-- The commands below a command. -/
def children : Verb → List (String × Verb)
  | .plain => [("run", .run), ("repl", .repl), ("inspect", .inspect), ("tools", .tools)]
  | .tools => [("docs", .docs)]
  | _ => []

/-- The flags that every command has. -/
def commonFlags : List Flag :=
  [{ name := "config" }, { name := "tape-size", kind := .number },
    { name := "cell-width", kind := .number }, { name := "eof" },
    { name := "max-steps", letter := some 'n', kind := .number }, { name := "prompt" },
    { name := "history-file" }, { name := "dump-state", kind := .switch }, { name := "state-file" },
    { name := "log-level" }, { name := "log-file" }]

def helpFlag : Flag := { name := "help", letter := some 'h', kind := .switch }

def ownFlags : Verb → List Flag
  | .docs => [{ name := "output", letter := some 'o' }]
  | _ => []

/-- The flags by which a command is told from their values. -/
def flags (v : Verb) : List Flag := commonFlags ++ v.ownFlags

/-- Whether an argument is a flag whose value is the next argument. -/
def takesNext (v : Verb) (argument : String) : Bool :=
  let isSwitch (p : Flag → Bool) := v.flags.any fun f => p f && f.kind = .switch
  let body := argument.toList
  if body.contains '=' then false
  else if argument.startsWith "--" then
    !isSwitch fun f => f.name == String.ofList (body.drop 2)
  else
    match body with
    | ['-', letter] => !isSwitch fun f => f.letter == some letter
    | _ => false

/-- The first argument that is neither a flag nor the value of one. A flag with fewer than two
arguments behind it ends the search. -/
def candidate? (v : Verb) : Nat → List String → Option String
  | 0, _ => none
  | _, [] => none
  | fuel + 1, argument :: rest =>
    if argument = "--" then none
    else if v.takesNext argument then
      match rest with
      | _ :: next :: rest => v.candidate? fuel (next :: rest)
      | _ => none
    else if argument != "" && !argument.startsWith "-" then some argument
    else v.candidate? fuel rest

/-- The arguments without the first one that names the command. -/
def without (v : Verb) (name : String) : Nat → List String → List String
  | 0, arguments => arguments
  | _, [] => []
  | fuel + 1, argument :: rest =>
    if argument = "--" then argument :: rest
    else if v.takesNext argument then
      match rest with
      | value :: rest => argument :: value :: v.without name fuel rest
      | [] => [argument]
    else if argument = name then rest
    else argument :: v.without name fuel rest

def findWithin : Nat → Verb → List String → Verb × List String
  | 0, v, arguments => (v, arguments)
  | depth + 1, v, arguments =>
    match (v.candidate? arguments.length arguments).bind fun name =>
        (v.children.lookup name).map (name, ·) with
    | some (name, child) => findWithin depth child (v.without name arguments.length arguments)
    | none => (v, arguments)

/-- The command that is meant, and the arguments without its names. -/
def find (arguments : List String) : Verb × List String :=
  findWithin (arguments.length + 1) .plain arguments

/-- The first argument that a command does not take. -/
def objection? (v : Verb) (arguments : List String) : Option Misuse :=
  match v with
  | .plain => if 1 < arguments.length then some (.tooManyArguments 1 arguments.length) else none
  | .run | .inspect =>
    if arguments.length ≠ 1 then some (.wrongArguments 1 arguments.length) else none
  | .repl => arguments.head?.map fun argument => .unwantedArgument argument v.path
  | .tools => none
  | .docs =>
    let known := Command.Documentation.subjects.map (·.1)
    match arguments.find? fun argument => !known.contains argument with
    | some argument => some (.invalidArgument argument v.path)
    | none => if arguments.length ≠ 1 then some (.wrongArguments 1 arguments.length) else none

end Verb
end TapeMachine.CommandLine
