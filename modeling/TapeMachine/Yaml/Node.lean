import TapeMachine.Yaml.Scalar
import TapeMachine.Yaml.Trouble

/-! The values of a document as a tree.

A value that has an anchor is known by a number. An alias stands for the value with such a number, and
has a number of its own, so that one that is met again inside its value can be told. -/
namespace TapeMachine.Yaml

/-- A value, with the line where it begins and the name of its type. -/
inductive Node
  | scalar (line : Nat) (tag text : String)
  | sequence (line : Nat) (tag : String) (items : List Node)
  | mapping (line : Nat) (tag : String) (entries : List (Node × Node))
  | alias (line : Nat) (name : String) (number target : Nat)
  deriving Repr

/-! ### Equal trees -/

mutual

def Node.decEq : (a b : Node) → Decidable (a = b)
  | .scalar l t x, .scalar l' t' x' => decidable_of_iff (l = l' ∧ t = t' ∧ x = x') (by simp)
  | .sequence l t xs, .sequence l' t' ys =>
    have := decEqItems xs ys
    decidable_of_iff (l = l' ∧ t = t' ∧ xs = ys) (by simp)
  | .mapping l t xs, .mapping l' t' ys =>
    have := decEqEntries xs ys
    decidable_of_iff (l = l' ∧ t = t' ∧ xs = ys) (by simp)
  | .alias l x n k, .alias l' x' n' k' => decidable_of_iff (l = l' ∧ x = x' ∧ n = n' ∧ k = k') (by simp)
  | .scalar .., .sequence .. | .scalar .., .mapping .. | .scalar .., .alias .. => .isFalse (by simp)
  | .sequence .., .scalar .. | .sequence .., .mapping .. | .sequence .., .alias .. => .isFalse (by simp)
  | .mapping .., .scalar .. | .mapping .., .sequence .. | .mapping .., .alias .. => .isFalse (by simp)
  | .alias .., .scalar .. | .alias .., .sequence .. | .alias .., .mapping .. => .isFalse (by simp)

def decEqItems : (a b : List Node) → Decidable (a = b)
  | [], [] => .isTrue rfl
  | [], _ :: _ | _ :: _, [] => .isFalse (by simp)
  | x :: xs, y :: ys =>
    have := x.decEq y
    have := decEqItems xs ys
    decidable_of_iff (x = y ∧ xs = ys) (by simp)

def decEqEntries : (a b : List (Node × Node)) → Decidable (a = b)
  | [], [] => .isTrue rfl
  | [], _ :: _ | _ :: _, [] => .isFalse (by simp)
  | (k, v) :: xs, (k', v') :: ys =>
    have := k.decEq k'
    have := v.decEq v'
    have := decEqEntries xs ys
    decidable_of_iff ((k = k' ∧ v = v') ∧ xs = ys) (by simp)

end

instance : DecidableEq Node := Node.decEq

/-- A document: its outermost value and the values that have anchors. -/
structure Document where
  root : Node
  anchored : List (Nat × Node) := []
  /-- A bound on how many values stand inside each other, aliases not followed. -/
  size : Nat := 0
  deriving DecidableEq, Repr

namespace Node

def line : Node → Nat
  | .scalar line _ _ | .sequence line _ _ | .mapping line _ _ | .alias line _ _ _ => line

/-- The name of the type; an alias has none. -/
def tag : Node → String
  | .scalar _ tag _ | .sequence _ tag _ | .mapping _ tag _ => tag
  | .alias .. => ""

/-- The text of a scalar and the name of an alias; collections have none. -/
def text : Node → String
  | .scalar _ _ text => text
  | .alias _ name _ _ => name
  | _ => ""

def isMapping : Node → Bool
  | .mapping .. => true
  | _ => false

/-- Whether two nodes are the same as keys: of one form, with one text. -/
def sameKey : Node → Node → Bool
  | .scalar _ _ a, .scalar _ _ b => a == b
  | .sequence .., .sequence .. => true
  | .mapping .., .mapping .. => true
  | .alias _ a _ _, .alias _ b _ _ => a == b
  | _, _ => false

/-- A plain scalar, whose type is that of its meaning. -/
def plain (line : Nat) (text : String) : Node :=
  .scalar line (if text = "<<" then "!!merge" else (Scalar.resolve text).tag) text

/-- A scalar that can only be a text. -/
def string (line : Nat) (text : String) : Node := .scalar line "!!str" text

/-- The complaint that a node is not a `target`. -/
def mismatch (n : Node) (target : String) : Complaint :=
  .mismatch n.line n.tag n.text target

/-- The complaints about the keys of a mapping that come again. -/
def repeatedKeys : List (Node × Node) → List Complaint
  | [] => []
  | (key, _) :: rest =>
    (rest.filter fun (other, _) => key.sameKey other).map
        (fun (other, _) => .repeatedKey other.line other.text key.line)
      ++ repeatedKeys rest

/-- Whether a node is the key under which the entries of other mappings are taken over. -/
def isMerge : Node → Bool
  | .scalar _ tag text => text == "<<" && tag == "!!merge"
  | _ => false

end Node

namespace Document

/-- A bound on how many values stand inside each other, when no alias is followed inside itself. -/
def depth (d : Document) : Nat := (d.size + 2) * (d.size + 2)

/-- The value that a node stands for: itself, unless it is an alias. -/
def resolve (d : Document) (n : Node) : Node :=
  match n with
  | .alias _ _ _ target => (d.anchored.lookup target).getD n
  | _ => n

/-- The name of the type of the value that a node stands for. -/
def tagOf (d : Document) (n : Node) : String := (d.resolve n).tag

end Document
end TapeMachine.Yaml
