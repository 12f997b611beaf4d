import TapeMachine.Text.Blank
import TapeMachine.Text.Numeral
import TapeMachine.Text.Quoted
import TapeMachine.Fault

/-! Severities of log records. They are numbers, four of which have names; the others are written as
a distance from the named one below them. -/
namespace TapeMachine.Log

abbrev Level := Int

namespace Level

def debug : Level := -4

def info : Level := 0

def warn : Level := 4

def error : Level := 8

/-- A name and the distance from it. -/
def offset (name : String) (distance : Int) : String :=
  if distance = 0 then name
  else if 0 < distance then name ++ "+" ++ toString distance
  else name ++ toString distance

def name (l : Level) : String :=
  if l < info then offset "DEBUG" (l - debug)
  else if l < warn then offset "INFO" (l - info)
  else if l < error then offset "WARN" (l - warn)
  else offset "ERROR" (l - error)

/-- The capital of a letter as far as it is an ASCII one: besides the small ASCII letters, only the
dotless i has such a capital among the letters of the names. -/
def capital (c : Char) : Char := if c.toNat = 0x131 then 'I' else c.toUpper

/-- The level of a bare name in any case. -/
def ofName? (name : List Char) : Option Level :=
  let upper := String.ofList (name.map capital)
  if upper = "DEBUG" then some debug
  else if upper = "INFO" then some info
  else if upper = "WARN" then some warn
  else if upper = "ERROR" then some error
  else none

/-- A name, optionally followed by a signed distance. -/
def parse (s : List Char) : Except String Level :=
  match s.span fun c => c != '+' && c != '-' with
  | (name, []) =>
    match ofName? name with
    | some l => .ok l
    | none => .error "unknown name"
  | (name, distance) =>
    match Text.Numeral.decimal distance with
    | .error problem =>
      .error ("strconv.Atoi: parsing " ++ Text.Quoted.render (String.ofList distance) ++ ": "
        ++ problem.text)
    | .ok d =>
      match ofName? name with
      | some l => .ok (Word.wrap (l + d))
      | none => .error "unknown name"

/-- The level that a setting asks for; white space around it does not matter. -/
def ofText (text : String) : Except Fault Level :=
  let trimmed := Text.trim text.toList
  match parse trimmed with
  | .ok l => .ok l
  | .error problem =>
    .error (.told ("invalid log level '" ++ text ++ "': slog: level string "
      ++ Text.Quoted.render (String.ofList trimmed) ++ ": " ++ problem))

end Level
end TapeMachine.Log
