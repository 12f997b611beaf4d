import TapeMachine.Fault

/-! Bracket pairs.

`resolve` reads a program once, from its last byte to its first, keeping the closing brackets that
still wait for their partner. It either fills a `JumpTable`, which gives every bracket its partner,
or names the bracket that has none: the rightmost opening one, or else the leftmost closing one. -/
namespace TapeMachine

/-- A program: any bytes. -/
abbrev Program := Array UInt8

/-- The partner of each position that holds a bracket. -/
structure JumpTable where
  targets : Array (Option Nat) := #[]
  /-- The number of pairs. -/
  pairCount : Nat := 0
  deriving DecidableEq, Repr

namespace JumpTable

/-- The partner of the bracket at `i`. -/
def partner? (t : JumpTable) (i : Nat) : Option Nat := t.targets.getD i none

/-- The partner of the bracket at any signed position. -/
def lookup (t : JumpTable) (i : Int) : Option Nat := if i < 0 then none else t.partner? i.toNat

/-- The pairs that open before position `n`, followed by `rest`. -/
def pairsBefore (t : JumpTable) : Nat → List (Nat × Nat) → List (Nat × Nat)
  | 0, rest => rest
  | i + 1, rest =>
    match t.partner? i with
    | some j => t.pairsBefore i (if i < j then (i, j) :: rest else rest)
    | none => t.pairsBefore i rest

/-- Every pair of an opening and its closing position, ascending. -/
def pairs (t : JumpTable) : List (Nat × Nat) := t.pairsBefore t.targets.size []

/-- Enters the pair of an opening bracket at `i` and a closing one at `j`. -/
def link (t : JumpTable) (i j : Nat) : JumpTable :=
  match t with
  | ⟨targets, count⟩ =>
    ⟨(targets.setIfInBounds i (some j)).setIfInBounds j (some i), count + 1⟩

end JumpTable

namespace Brackets

def opening : UInt8 := 0x5b

def closing : UInt8 := 0x5d

/-- Scans the bytes before position `n`, from right to left. `table` holds the pairs found so far and
`waiting` the closing brackets without a partner, leftmost first. -/
def scan (program : Program) : Nat → JumpTable → List Nat → Except Cause JumpTable
  | 0, table, [] => .ok table
  | 0, _, j :: _ => .error (.unmatchedClose j)
  | i + 1, table, waiting =>
    let byte := program.getD i 0
    if byte = closing then scan program i table (i :: waiting)
    else if byte = opening then
      match waiting with
      | [] => .error (.unmatchedOpen i)
      | j :: rest => scan program i (table.link i j) rest
    else scan program i table waiting

/-- The table of a program whose brackets are balanced, or the bracket at fault. -/
def resolve (program : Program) : Except Cause JumpTable :=
  scan program program.size ⟨Array.replicate program.size none, 0⟩ []

/-- What resolving hands out: the table, and the fault if a bracket has no partner. The table is the empty one
then. -/
def resolution (program : Program) : JumpTable × Option Fault :=
  match resolve program with
  | .ok table => (table, none)
  | .error cause => ({}, some (.caused .unbalancedBrackets cause))

end Brackets
end TapeMachine
