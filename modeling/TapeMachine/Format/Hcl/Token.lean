import TapeMachine.Text.Decimal

/-! The words that a text in HCL is made of. -/
namespace TapeMachine.Format.Hcl

/-- A place in a text, counted from one. -/
structure Place where
  line : Nat
  column : Nat
  deriving DecidableEq, Repr

def Place.text (p : Place) : String := toString p.line ++ ":" ++ toString p.column

inductive Kind
  | illegal
  | ending
  | comment
  | name
  | integer
  | real
  | flag
  | string
  | lines
  | openBracket
  | closeBracket
  | openBrace
  | closeBrace
  | comma
  | point
  | assign
  | plus
  | minus
  deriving DecidableEq, Repr

def Kind.text : Kind → String
  | .illegal => "ILLEGAL"
  | .ending => "EOF"
  | .comment => "COMMENT"
  | .name => "IDENT"
  | .integer => "NUMBER"
  | .real => "FLOAT"
  | .flag => "BOOL"
  | .string => "STRING"
  | .lines => "HEREDOC"
  | .openBracket => "LBRACK"
  | .closeBracket => "RBRACK"
  | .openBrace => "LBRACE"
  | .closeBrace => "RBRACE"
  | .comma => "COMMA"
  | .point => "PERIOD"
  | .assign => "ASSIGN"
  | .plus => "ADD"
  | .minus => "SUB"

/-- A trouble and the place where it was met. -/
structure Trouble where
  place : Place
  text : String
  deriving DecidableEq, Repr

def Trouble.message (t : Trouble) : String := "At " ++ t.place.text ++ ": " ++ t.text

structure Token where
  kind : Kind
  text : List Char
  place : Place
  /-- The last trouble up to the end of this word. -/
  trouble : Option Trouble := none
  deriving DecidableEq, Repr

def Token.shown (t : Token) : String :=
  t.place.text ++ " " ++ t.kind.text ++ " " ++ String.ofList t.text

end TapeMachine.Format.Hcl
