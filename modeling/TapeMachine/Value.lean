import TapeMachine.Real.Shortest
import TapeMachine.Text.Hex
import TapeMachine.Text.Quoted
import TapeMachine.Time
import TapeMachine.Word

/-! Values of documents of any form. -/
namespace TapeMachine

inductive Value
  | null
  | flag (value : Bool)
  | integer (value : Int)
  | real (value : Real)
  | time (value : Time)
  | text (value : String)
  | list (items : List Value)
  /-- A mapping, and whether all its keys are texts. -/
  | map (textual : Bool) (entries : List (Value × Value))
  deriving Repr

namespace Value

/-- Whether two values are the same as keys. Collections are no keys. -/
def sameKey : Value → Value → Bool
  | .null, .null => true
  | .flag a, .flag b => a == b
  | .integer a, .integer b => a == b
  | .real a, .real b => a.same b
  | .time a, .time b => a == b && a.offset.getD 0 == 0
  | .text a, .text b => a == b
  | _, _ => false

/-- The name of the type of a collection. -/
def collection? : Value → Option String
  | .list _ => some "[]interface \x7b\x7d"
  | .map textual _ =>
    some (if textual then "map[string]interface \x7b\x7d"
      else "map[interface \x7b\x7d]interface \x7b\x7d")
  | _ => none

/-- The value of a key. -/
def find? (key : Value) : List (Value × Value) → Option Value
  | [] => none
  | (k, v) :: rest => if k.sameKey key then some v else find? key rest

/-- Sets the value of a key. -/
def insert (key value : Value) : List (Value × Value) → List (Value × Value)
  | [] => [(key, value)]
  | (k, v) :: rest =>
    if k.sameKey key then (k, value) :: rest else (k, v) :: insert key value rest

/-- The order of keys of one type. -/
def keyBefore : Value → Value → Bool
  | .text a, .text b => a ≤ b
  | .integer a, .integer b => a ≤ b
  | .flag a, .flag b => !a || b
  | _, _ => true

/-- An integer: above the signed words in hexadecimal digits. -/
def shownInteger (i : Int) : String :=
  if Word.fits i then toString i else "0x" ++ String.ofList (Nat.toDigits 16 i.toNat)

mutual
/-- A value as the expression that makes it. -/
def shown : Value → String
  | .null => "interface \x7b\x7d(nil)"
  | .flag b => if b then "true" else "false"
  | .integer i => shownInteger i
  | .real r => r.renderShort
  | .time t => t.expression
  | .text s => Text.Quoted.render s
  | .list items => "[]interface \x7b\x7d\x7b" ++ ", ".intercalate (shownItems items) ++ "\x7d"
  | .map textual entries =>
    (if textual then "map[string]interface \x7b\x7d" else "map[interface \x7b\x7d]interface \x7b\x7d")
      ++ "\x7b" ++ ", ".intercalate (((shownEntries entries).mergeSort
        fun a b => keyBefore a.1 b.1).map Prod.snd) ++ "\x7d"

def shownItems : List Value → List String
  | [] => []
  | item :: rest => shown item :: shownItems rest

/-- Entries with their keys. -/
def shownEntries : List (Value × Value) → List (Value × String)
  | [] => []
  | (key, value) :: rest => (key, shown key ++ ":" ++ shown value) :: shownEntries rest
end

end Value
end TapeMachine
