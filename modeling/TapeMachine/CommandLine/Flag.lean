import TapeMachine.Text.Numeral
import TapeMachine.Text.Quoted
import TapeMachine.Text.Utf8

/-! Flags.

A flag is given as `--name value`, `--name=value` or, if it has a letter, `-xvalue`, `-x value` or
`-x=value`. One that is switched on needs no value. Flags may stand anywhere before a bare `--`, and the
last value given counts. -/
namespace TapeMachine.CommandLine

/-- What values a flag takes. -/
inductive FlagKind
  | text
  | number
  | switch
  deriving DecidableEq, Repr

structure Flag where
  name : String
  letter : Option Char := none
  kind : FlagKind := .text
  deriving DecidableEq, Repr

/-- What is wrong with a command line. -/
inductive Misuse
  | unknownFlag (name : String)
  | unknownLetter (letter : Char) (letters : String)
  | malformedFlag (argument : String)
  | missingValue (argument : String)
  | missingLetterValue (letter : Char) (letters : String)
  /-- A value that the flag does not take, and why. -/
  | badValue (value : String) (flag : Flag) (reason : String)
  | tooManyArguments (most given : Nat)
  | wrongArguments (wanted given : Nat)
  | unwantedArgument (argument command : String)
  | invalidArgument (argument command : String)
  deriving DecidableEq, Repr

/-- The names of a flag as they are shown. -/
def Flag.shown (f : Flag) : String :=
  match f.letter with
  | some letter => "-" ++ String.singleton letter ++ ", --" ++ f.name
  | none => "--" ++ f.name

/-- A letter between quotes. -/
def quoteLetter (c : Char) : String :=
  if c = '\'' then "'\\''"
  else if c = '"' then "'\"'"
  else "'" ++ String.ofList (Text.Quoted.encodeChar c) ++ "'"

def Misuse.message : Misuse → String
  | .unknownFlag name => "unknown flag: --" ++ name
  | .unknownLetter letter letters =>
    "unknown shorthand flag: " ++ quoteLetter letter ++ " in -" ++ letters
  | .malformedFlag argument => "bad flag syntax: " ++ argument
  | .missingValue argument => "flag needs an argument: " ++ argument
  | .missingLetterValue letter letters =>
    "flag needs an argument: " ++ quoteLetter letter ++ " in -" ++ letters
  | .badValue value flag reason =>
    "invalid argument " ++ Text.Quoted.render value ++ " for " ++ Text.Quoted.render flag.shown
      ++ " flag: " ++ reason
  | .tooManyArguments most given =>
    "accepts at most " ++ toString most ++ " arg(s), received " ++ toString given
  | .wrongArguments wanted given =>
    "accepts " ++ toString wanted ++ " arg(s), received " ++ toString given
  | .unwantedArgument argument command =>
    "unknown command " ++ Text.Quoted.render argument ++ " for " ++ Text.Quoted.render command
  | .invalidArgument argument command =>
    "invalid argument " ++ Text.Quoted.render argument ++ " for " ++ Text.Quoted.render command

/-- A truth value. -/
def truth? (s : String) : Option Bool :=
  if ["1", "t", "T", "TRUE", "true", "True"].contains s then some true
  else if ["0", "f", "F", "FALSE", "false", "False"].contains s then some false
  else none

namespace Flag

/-- Checks a value and gives it in its usual form. -/
def accept (f : Flag) (value : String) : Except Misuse String :=
  let refuse (reader problem : String) : Misuse :=
    .badValue value f
      ("strconv." ++ reader ++ ": parsing " ++ Text.Quoted.render value ++ ": " ++ problem)
  match f.kind with
  | .text => .ok value
  | .number =>
    match Text.Numeral.free value.toList with
    | .ok i => .ok (toString i)
    | .error problem => .error (refuse "ParseInt" problem.text)
  | .switch =>
    match truth? value with
    | some b => .ok (if b then "true" else "false")
    | none => .error (refuse "ParseBool" "invalid syntax")

end Flag

/-- A command line taken apart: the flags given, last first, and the arguments. -/
structure Parsed where
  values : List (String × String) := []
  arguments : List String := []
  deriving DecidableEq, Repr

namespace Parsed

/-- The last value given for a flag. -/
def value? (p : Parsed) (name : String) : Option String := p.values.lookup name

def set (p : Parsed) (f : Flag) (value : String) : Except Misuse Parsed :=
  (f.accept value).map fun value => { p with values := (f.name, value) :: p.values }

/-- Takes a flag that is given by its name; `rest` are the arguments behind it. -/
def long (flags : List Flag) (argument : String) (rest : List String) (p : Parsed) :
    Except Misuse (Parsed × List String) :=
  let body := argument.toList.drop 2
  let name := String.ofList (body.takeWhile (· != '='))
  let given := body.dropWhile (· != '=')
  if body.head? == some '-' || body.head? == some '=' then .error (.malformedFlag argument)
  else
    match flags.find? (·.name == name), given, rest with
    | none, _, _ => .error (.unknownFlag name)
    | some f, _ :: value, _ => (p.set f (String.ofList value)).map (·, rest)
    | some f, [], rest =>
      if f.kind = .switch then (p.set f "true").map (·, rest)
      else
        match rest with
        | value :: rest => (p.set f value).map (·, rest)
        | [] => .error (.missingValue argument)

/-- The character whose number is the first byte of a letter. -/
def firstByte (letter : Char) : Char :=
  Char.ofNat (((Text.Utf8.encodeChar letter).head?.map UInt8.toNat).getD 0)

/-- Takes flags that are given by their letters. Letters are single bytes, so that of a character of
several bytes the first one is the letter that is not known. -/
def short (flags : List Flag) : List Char → List String → Parsed →
    Except Misuse (Parsed × List String)
  | [], rest, p => .ok (p, rest)
  | letter :: letters, rest, p =>
    let all := String.ofList (letter :: letters)
    match flags.find? (·.letter == some letter) with
    | none => .error (.unknownLetter (firstByte letter) all)
    | some f =>
      match letters with
      | '=' :: c :: value => (p.set f (String.ofList (c :: value))).map (·, rest)
      | _ =>
        if f.kind = .switch then
          match p.set f "true" with
          | .error misuse => .error misuse
          | .ok p => short flags letters rest p
        else
          match letters, rest with
          | _ :: _, _ => (p.set f (String.ofList letters)).map (·, rest)
          | [], value :: rest => (p.set f value).map (·, rest)
          | [], [] => .error (.missingLetterValue letter all)

/-- Whether an argument gives flags: it begins with a dash and is more than that. -/
def givesFlags (argument : String) : Bool := argument.startsWith "-" && argument != "-"

def parseWithin (flags : List Flag) : Nat → List String → Parsed → Except Misuse Parsed
  | 0, _, p => .ok p
  | _, [], p => .ok p
  | fuel + 1, argument :: rest, p =>
    if !givesFlags argument then
      parseWithin flags fuel rest { p with arguments := p.arguments ++ [argument] }
    else if argument = "--" then .ok { p with arguments := p.arguments ++ rest }
    else
      let taken :=
        if argument.startsWith "--" then long flags argument rest p
        else short flags (argument.toList.drop 1) rest p
      match taken with
      | .error misuse => .error misuse
      | .ok (p, rest) => parseWithin flags fuel rest p

/-- Takes a command line apart. -/
def parse (flags : List Flag) (arguments : List String) : Except Misuse Parsed :=
  parseWithin flags arguments.length arguments {}

end Parsed
end TapeMachine.CommandLine
