/-! The tape: a ring of cells of `w` bits and a pointer to one of them.

Moving past either end comes out at the other, and cell arithmetic is modulo `2 ^ w`. A tape may be
empty; then the pointer points nowhere and moves freely, and `isReady` tells that no cell can be read
or written. -/
namespace TapeMachine

structure Tape (w : Nat) where
  cells : Array (BitVec w)
  pointer : Int := 0
  deriving DecidableEq, Repr

namespace Tape
variable {w : Nat}

/-- A tape of `size` zero cells. -/
def blank (size : Nat) : Tape w := ⟨Array.replicate size 0, 0⟩

/-- The most bytes that a tape may take. -/
def greatestExtent : Nat := Nat.pow 2 48

/-- A blank tape of any signed size; there is none of a negative size, nor of one whose cells do not
fit in `greatestExtent` bytes. -/
def blank? (size : Int) : Option (Tape w) :=
  if size < 0 ∨ greatestExtent < size.toNat * (w / 8) then none else some (blank size.toNat)

def size (t : Tape w) : Nat := t.cells.size

/-- Whether the pointer points to a cell. -/
def isReady (t : Tape w) : Bool := decide (0 ≤ t.pointer ∧ t.pointer < t.size)

/-! ### The current cell -/

def current (t : Tape w) : BitVec w := t.cells.getD t.pointer.toNat 0

def setCurrent (t : Tape w) (v : BitVec w) : Tape w :=
  { t with cells := t.cells.setIfInBounds t.pointer.toNat v }

def increment (t : Tape w) : Tape w := t.setCurrent (t.current + 1)

def decrement (t : Tape w) : Tape w := t.setCurrent (t.current - 1)

def isZero (t : Tape w) : Bool := t.current == 0

/-- The low byte of the current cell. -/
def byte (t : Tape w) : UInt8 := t.current.toNat.toUInt8

def setByte (t : Tape w) (b : UInt8) : Tape w := t.setCurrent (BitVec.ofNat w b.toNat)

/-- Sets the current cell to the greatest value it can hold. -/
def setMax (t : Tape w) : Tape w := t.setCurrent (BitVec.allOnes w)

/-- Sets the current cell to `v` modulo `2 ^ w`. -/
def setValue (t : Tape w) (v : Nat) : Tape w := t.setCurrent (BitVec.ofNat w v)

/-! ### The pointer -/

def moveRight (t : Tape w) : Tape w :=
  let p := t.pointer + 1
  { t with pointer := if p = t.size then 0 else p }

def moveLeft (t : Tape w) : Tape w :=
  { t with pointer := (if t.pointer = 0 then (t.size : Int) else t.pointer) - 1 }

/-- The address that index `i` stands for, counted around the ring. -/
def address (t : Tape w) (i : Int) : Int := i % (t.size : Int)

/-- Points at the cell that index `i` stands for. -/
def seek (t : Tape w) (i : Int) : Tape w := { t with pointer := t.address i }

/-- The value of the cell that index `i` stands for. -/
def valueAt (t : Tape w) (i : Int) : Nat := (t.cells.getD (t.address i).toNat 0).toNat

/-- The blank tape of the same size. -/
def reset (t : Tape w) : Tape w := blank t.size

/-! ### The cells that are not zero -/

/-- The nonzero cells before position `n`, followed by `rest`. -/
def nonzeroBefore (t : Tape w) : Nat → List (Nat × Nat) → List (Nat × Nat)
  | 0, rest => rest
  | i + 1, rest =>
    let v := (t.cells.getD i 0).toNat
    t.nonzeroBefore i (if v = 0 then rest else (i, v) :: rest)

/-- Index and value of every nonzero cell, ascending. -/
def nonzero (t : Tape w) : List (Nat × Nat) := t.nonzeroBefore t.size []

/-! ### Operations -/

/-- What can be done to a tape. -/
inductive Operation
  | moveRight
  | moveLeft
  | increment
  | decrement
  | setByte (b : UInt8)
  | setMax
  | setValue (v : Nat)
  | seek (i : Int)
  | reset
  deriving DecidableEq, Repr

/-- What an operation does where it is defined. -/
def perform (t : Tape w) : Operation → Tape w
  | .moveRight => t.moveRight
  | .moveLeft => t.moveLeft
  | .increment => t.increment
  | .decrement => t.decrement
  | .setByte b => t.setByte b
  | .setMax => t.setMax
  | .setValue v => t.setValue v
  | .seek i => t.seek i
  | .reset => t.reset

/-- Whether an operation is defined: one on the current cell needs a cell, and a seek needs a ring to
count around. -/
def accepts (t : Tape w) : Operation → Bool
  | .moveRight | .moveLeft | .reset => true
  | .seek _ => t.size != 0
  | .increment | .decrement | .setByte _ | .setMax | .setValue _ => t.isReady

/-- The tape after an operation, if the operation is defined. -/
def attempt (t : Tape w) (op : Operation) : Option (Tape w) :=
  if t.accepts op then some (t.perform op) else none

end Tape
end TapeMachine
