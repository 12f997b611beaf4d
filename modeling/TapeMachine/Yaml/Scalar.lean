import TapeMachine.Real
import TapeMachine.Time

/-! What a plain scalar means.

A few words stand for truth values, for nothing and for the special numbers. What begins with a digit
or a sign may be a date or a number. Everything else is a text. -/
namespace TapeMachine.Yaml

inductive Scalar
  | null
  | flag (value : Bool)
  | integer (value : Int)
  | real (value : Real)
  | time (value : Time)
  | text (value : String)
  deriving DecidableEq, Repr

/-- The name of the type of a scalar. -/
def Scalar.tag : Scalar → String
  | .null => "!!null"
  | .flag _ => "!!bool"
  | .integer _ => "!!int"
  | .real _ => "!!float"
  | .time _ => "!!timestamp"
  | .text _ => "!!str"

namespace Scalar

/-- The words with a meaning of their own. -/
def words : List (String × Scalar) := [
  ("true", .flag true), ("True", .flag true), ("TRUE", .flag true),
  ("false", .flag false), ("False", .flag false), ("FALSE", .flag false),
  ("", .null), ("~", .null), ("null", .null), ("Null", .null), ("NULL", .null),
  (".nan", .real .undefined), (".NaN", .real .undefined), (".NAN", .real .undefined),
  (".inf", .real (.infinite false)), (".Inf", .real (.infinite false)),
  (".INF", .real (.infinite false)), ("+.inf", .real (.infinite false)),
  ("+.Inf", .real (.infinite false)), ("+.INF", .real (.infinite false)),
  ("-.inf", .real (.infinite true)), ("-.Inf", .real (.infinite true)),
  ("-.INF", .real (.infinite true))]

/-! ### Numbers -/

/-- An unsigned number of any base, which may be above the signed words. -/
def unsigned? (s : List Char) : Option Int :=
  (Text.Numeral.unsignedFree s).toOption.map fun (n : Nat) => (n : Int)

/-- A signed number in a given base, which may be above the signed words. -/
def inBase? (base : Nat) (s : List Char) : Option Int :=
  let read (s : List Char) : Except Text.Numeral.Problem Nat :=
    if s.isEmpty then .error .invalidSyntax else Text.Numeral.magnitude base false 0 s
  match (Text.Numeral.signedBy read s).toOption with
  | some i => some i
  | none => (read s).toOption.map fun (n : Nat) => (n : Int)

/-- A number behind the mark of its base, where its sign may stand as well. -/
def marked? (s : List Char) : Option Int :=
  match s with
  | '0' :: 'b' :: rest => inBase? 2 rest
  | '0' :: 'o' :: rest => inBase? 8 rest
  | _ => none

/-- The number that a text with a digit or a sign in front stands for. Underscores do not count. -/
def number? (s : List Char) : Option Scalar :=
  let s := s.filter (· != '_')
  match (Text.Numeral.free s).toOption with
  | some i => some (.integer i)
  | none =>
    match unsigned? s with
    | some i => some (.integer i)
    | none =>
      match Real.parse? s with
      | some r => some (.real r)
      | none => (marked? s).map .integer

/-- The number that a text with a point in front stands for. Underscores stand between digits. -/
def fraction? (s : List Char) : Option Scalar :=
  if s.contains '_' && !Text.Numeral.isSpaced s then none
  else (Real.parse? (s.filter (· != '_'))).map .real

/-- The meaning of a plain scalar, where `times` tells whether it may be a time. -/
def meaning (times : Bool) (s : String) : Scalar :=
  match words.lookup s with
  | some scalar => scalar
  | none =>
    match s.toList with
    | [] => .null
    | c :: rest =>
      if c == '.' then (fraction? (c :: rest)).getD (.text s)
      else if c.isDigit || c == '+' || c == '-' then
        match if times then Time.parse? (c :: rest) else none with
        | some t => .time t
        | none => (number? (c :: rest)).getD (.text s)
      else .text s

/-- The meaning of a plain scalar. -/
def resolve (s : String) : Scalar := meaning true s

end Scalar
end TapeMachine.Yaml
