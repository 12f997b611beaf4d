/-! Texts with places for arguments.

A place is `%d` for a number, `%s` for a text and `%v` for either; `%%` is a percent sign. A place
and its argument that do not go together, a place without an argument and arguments without a place
are all told in the text itself. -/
namespace TapeMachine.Text.Template

inductive Argument
  | number (i : Int)
  | text (s : String)
  deriving DecidableEq, Repr

def Argument.plain : Argument → String
  | .number i => toString i
  | .text s => s

/-- An argument with the name of its type. -/
def Argument.described : Argument → String
  | .number i => "int=" ++ toString i
  | .text s => "string=" ++ s

/-- Whether a place of the given letter takes the argument. -/
def Argument.suits (letter : Char) : Argument → Bool
  | .number _ => letter == 'd' || letter == 'v'
  | .text _ => letter == 's' || letter == 'v'

/-- Arguments for which no place is left. -/
def excess : List Argument → String
  | [] => ""
  | args => "%!(EXTRA " ++ ", ".intercalate (args.map Argument.described) ++ ")"

/-- Fills the places of a template in order. -/
def fill : List Char → List Argument → String
  | [], args => excess args
  | ['%'], args => "%!(NOVERB)" ++ excess args
  | '%' :: '%' :: rest, args => "%" ++ fill rest args
  | '%' :: letter :: rest, [] =>
    "%!" ++ String.singleton letter ++ "(MISSING)" ++ fill rest []
  | '%' :: letter :: rest, arg :: args =>
    (if arg.suits letter then arg.plain
      else "%!" ++ String.singleton letter ++ "(" ++ arg.described ++ ")")
      ++ fill rest args
  | c :: rest, args => String.singleton c ++ fill rest args

end TapeMachine.Text.Template
