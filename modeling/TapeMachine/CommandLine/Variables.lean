/-! The variables of the environment, and texts that name them.

A dollar sign and a name stand for the value of a variable; the name may stand in braces. A variable
that is not set has an empty value. -/
namespace TapeMachine.CommandLine

abbrev Variables := List (String × String)

namespace Variables

/-- The value of a variable. -/
def value (vars : Variables) (name : String) : String := (vars.lookup name).getD ""

/-- Whether a character alone is the name of a variable. -/
def isSpecial (c : Char) : Bool :=
  c.isDigit || ['*', '#', '$', '@', '!', '?', '-'].contains c

def isNameCharacter (c : Char) : Bool := c.isAlphanum || c == '_'

/-- What stands behind a dollar sign: nothing that has a meaning, something that has none and is left
out, or a name. -/
inductive Reference
  | none
  | broken
  | name (value : String)
  deriving DecidableEq, Repr

/-- Reads a name behind an opening brace, and how many characters it takes with its braces. -/
def inBraces (s : List Char) : Reference × Nat :=
  let found := s.takeWhile (· != '\x7d')
  if found.length = s.length then (.broken, 1)
  else if found.isEmpty then (.broken, 2)
  else (.name (String.ofList found), found.length + 2)

/-- Reads what stands behind a dollar sign, and how many characters it takes. -/
def reference (s : List Char) : Reference × Nat :=
  match s with
  | '\x7b' :: rest =>
    match rest with
    | c :: '\x7d' :: _ => if isSpecial c then (.name (String.singleton c), 3) else inBraces rest
    | _ => inBraces rest
  | c :: _ =>
    if isSpecial c then (.name (String.singleton c), 1)
    else
      match s.takeWhile isNameCharacter with
      | [] => (.none, 0)
      | found => (.name (String.ofList found), found.length)
  | [] => (.none, 0)

/-- Replaces the names of variables by their values. -/
def expand (vars : Variables) (s : List Char) : List Char :=
  match s with
  | [] => []
  | c :: rest =>
    if c == '$' && !rest.isEmpty then
      match reference rest with
      | (.none, n) => c :: expand vars (rest.drop n)
      | (.broken, n) => expand vars (rest.drop n)
      | (.name name, n) => (vars.value name).toList ++ expand vars (rest.drop n)
    else c :: expand vars rest
termination_by s.length
decreasing_by all_goals (simp only [List.length_cons, List.length_drop]; omega)

end Variables
end TapeMachine.CommandLine
