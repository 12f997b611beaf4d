import Mathlib.Data.ZMod.Basic
import TapeMachine.Proofs.Histories

/-! The tape as modular arithmetic.

A pointer that points to a cell is moved by comparisons, set by a remainder, and the cells wrap at their width. All of
this is arithmetic of residues: a move is a seek to the next index (`Within.moveRight_eq`), a seek takes the residue
of its index, and a cell is a residue modulo `2 ^ w`. `ModularTape` has a residue for its pointer and one for each cell,
and `Represents` says that a tape is made of the least nonnegative representatives of these. Every change keeps it so
(`Represents.change`), hence any sequence of changes does. -/
namespace TapeMachine

/-! ### Pointers and cells -/

namespace Tape
variable {w n : Nat} {t : Tape w}

theorem Within.address (h : t.Within n) (i : Int) : t.address i = i % n := by
  rw [Tape.address, h.size]

theorem Within.pos (h : t.Within n) : 0 < n := by
  have hpointer := h.pointer
  omega

theorem Within.address_pointer (h : t.Within n) : t.address t.pointer = t.pointer := by
  rw [h.address]
  exact Int.emod_eq_of_lt h.pointer.1 h.pointer.2

theorem seek_congr {i j : Int} (h : t.address i = t.address j) : t.seek i = t.seek j := by
  rw [seek, seek, h]

/-- Counting on from an address is counting on from the index. -/
theorem seek_address_add (t : Tape w) (i j : Int) : t.seek (t.address i + j) = t.seek (i + j) :=
  seek_congr (Int.emod_add_emod i t.size j)

theorem Within.seek_pointer (h : t.Within n) : t.seek t.pointer = t := by
  rw [Tape.seek, h.address_pointer]

/-- A step to the right is a seek to the next index. -/
theorem Within.moveRight_eq (h : t.Within n) : t.moveRight = t.seek (t.pointer + 1) := by
  have hpointer := h.pointer
  rw [Tape.moveRight, Tape.seek, h.address, h.size]
  by_cases hlast : t.pointer + 1 = n
  · rw [if_pos hlast, hlast, Int.emod_self]
  · rw [if_neg hlast, Int.emod_eq_of_lt (by omega) (by omega)]

/-- A step to the left is a seek to the index before. -/
theorem Within.moveLeft_eq (h : t.Within n) : t.moveLeft = t.seek (t.pointer - 1) := by
  have hpointer := h.pointer
  rw [Tape.moveLeft, Tape.seek, h.address, h.size]
  by_cases hfirst : t.pointer = 0
  · rw [if_pos hfirst, hfirst, ← Int.add_emod_right, Int.emod_eq_of_lt (by omega) (by omega), Int.add_comm]
    rfl
  · rw [if_neg hfirst, Int.emod_eq_of_lt (by omega) (by omega)]

theorem Within.lt_size (h : t.Within n) : t.pointer.toNat < t.cells.size := by
  have hpointer := h.pointer
  rw [show t.cells.size = n from h.size]
  omega

theorem Within.current_setCurrent (h : t.Within n) (v : BitVec w) : (t.setCurrent v).current = v := by
  simp [Tape.setCurrent, current, Array.getD_eq_getD_getElem?, h.lt_size]

theorem setCurrent_setCurrent (t : Tape w) (v v' : BitVec w) : (t.setCurrent v).setCurrent v' = t.setCurrent v' := by
  simp [setCurrent]

theorem Within.setCurrent_current (h : t.Within n) : t.setCurrent t.current = t := by
  have hlt := h.lt_size
  have hcurrent : t.current = t.cells[t.pointer.toNat] := by
    simp [current, Array.getD_eq_getD_getElem?, hlt]
  rw [Tape.setCurrent, hcurrent, Array.setIfInBounds_def, dif_pos hlt, Array.set_getElem_self]

theorem Within.valueAt_pointer (h : t.Within n) : t.valueAt t.pointer = t.current.toNat := by
  rw [valueAt, h.address_pointer, current]

/-- A cell that is set is found by every index that stands for it, and no other cell has changed. -/
theorem Within.valueAt_setCurrent (h : t.Within n) (v : BitVec w) (i : Int) :
    (t.setCurrent v).valueAt i = if t.address i = t.pointer then v.toNat else t.valueAt i := by
  have hnonneg : 0 ≤ t.address i := by
    rw [h.address]
    exact Int.emod_nonneg i (by have := h.pos; omega)
  have hpointer := h.pointer
  have hsame : t.pointer.toNat = (t.address i).toNat ↔ t.address i = t.pointer := by omega
  have haddress : (t.setCurrent v).address i = t.address i := by
    rw [Tape.address, t.size_setCurrent v, Tape.address]
  rw [valueAt, haddress, Tape.setCurrent, Array.getD_eq_getD_getElem?, Array.getElem?_setIfInBounds]
  by_cases hhit : t.address i = t.pointer
  · rw [if_pos (hsame.mpr hhit), if_pos h.lt_size, if_pos hhit]
    rfl
  · rw [if_neg (mt hsame.mp hhit), if_neg hhit, valueAt, Array.getD_eq_getD_getElem?]

end Tape

/-! ### Residues of cells -/

/-- The residue that a cell stands for. -/
def residue {w : Nat} (v : BitVec w) : ZMod (2 ^ w) := v.toNat

section
variable {w : Nat}

theorem val_residue (v : BitVec w) : (residue v).val = v.toNat := by
  rw [residue, ZMod.val_natCast, Nat.mod_eq_of_lt v.isLt]

theorem residue_ofNat (k : Nat) : residue (BitVec.ofNat w k) = k := by
  rw [residue, BitVec.toNat_ofNat, ZMod.natCast_mod]

theorem residue_add (v v' : BitVec w) : residue (v + v') = residue v + residue v' := by
  rw [residue, BitVec.toNat_add, ZMod.natCast_mod, Nat.cast_add, residue, residue]

theorem residue_succ (v : BitVec w) : residue (v + 1) = residue v + 1 := by
  rw [residue_add, show (1 : BitVec w) = BitVec.ofNat w 1 from rfl, residue_ofNat, Nat.cast_one]

theorem residue_pred (v : BitVec w) : residue (v - 1) = residue v - 1 := by
  rw [eq_sub_iff_add_eq, ← residue_succ, BitVec.sub_add_cancel]

/-- All ones are one less than zero. -/
theorem residue_allOnes : residue (BitVec.allOnes w) = -1 := by
  have hzero : BitVec.allOnes w + 1 = BitVec.ofNat w 0 := by
    rw [← BitVec.neg_one_eq_allOnes]
    exact BitVec.add_left_neg _
  rw [eq_neg_iff_add_eq_zero, ← residue_succ, hzero, residue_ofNat, Nat.cast_zero]

end

/-! ### The abstract tape -/

/-- A change of a tape: an operation, or a value of the cell's own type put into the current cell. -/
inductive Tape.Change (w : Nat)
  | setCell (v : BitVec w)
  | operate (op : Operation)

/-- What a change does where it is defined. -/
def Tape.change {w : Nat} (t : Tape w) : Change w → Tape w
  | .setCell v => t.setCurrent v
  | .operate op => t.perform op

/-- A pointer modulo `n`, and a residue modulo `2 ^ w` for every place it can point to. -/
structure ModularTape (w n : Nat) where
  pointer : ZMod n
  cells : ZMod n → ZMod (2 ^ w)

namespace ModularTape
variable {w n : Nat}

def blank : ModularTape w n := ⟨0, fun _ => 0⟩

def current (r : ModularTape w n) : ZMod (2 ^ w) := r.cells r.pointer

/-- Puts a residue where the pointer points. -/
def write (r : ModularTape w n) (x : ZMod (2 ^ w)) : ModularTape w n :=
  { r with cells := Function.update r.cells r.pointer x }

/-- Points elsewhere. -/
def point (r : ModularTape w n) (p : ZMod n) : ModularTape w n := { r with pointer := p }

def change (r : ModularTape w n) : Tape.Change w → ModularTape w n
  | .setCell v => r.write (residue v)
  | .operate .moveRight => r.point (r.pointer + 1)
  | .operate .moveLeft => r.point (r.pointer - 1)
  | .operate .increment => r.write (r.current + 1)
  | .operate .decrement => r.write (r.current - 1)
  | .operate (.setByte b) => r.write b.toNat
  | .operate .setMax => r.write (-1)
  | .operate (.setValue v) => r.write v
  | .operate (.seek i) => r.point i
  | .operate .reset => blank

end ModularTape

/-! ### Representatives -/

/-- The tape has the least nonnegative representatives of the residues, for its pointer and at every index. -/
structure Tape.Represents {w n : Nat} (t : Tape w) (r : ModularTape w n) : Prop where
  size : t.size = n
  pointer : t.pointer = r.pointer.val
  value : ∀ i : Int, t.valueAt i = (r.cells i).val

namespace Tape.Represents
variable {w n : Nat} [NeZero n] {t : Tape w} {r : ModularTape w n}

theorem within (h : t.Represents r) : t.Within n := by
  refine ⟨h.size, ?_⟩
  rw [h.pointer]
  exact ⟨Int.natCast_nonneg _, Int.ofNat_lt.mpr (ZMod.val_lt r.pointer)⟩

/-- The pointer stands for its residue. -/
theorem pointer_residue (h : t.Represents r) : ((t.pointer : Int) : ZMod n) = r.pointer := by
  rw [h.pointer, Int.cast_natCast, ZMod.natCast_zmod_val]

theorem current_residue (h : t.Represents r) : residue t.current = r.current := by
  rw [residue, ← h.within.valueAt_pointer, h.value, h.pointer_residue, ZMod.natCast_zmod_val]
  rfl

theorem seek (h : t.Represents r) (i : Int) : (t.seek i).Represents (r.point i) where
  size := h.size
  pointer := by
    show t.address i = _
    rw [h.within.address]
    exact (ZMod.val_intCast i).symm
  value := h.value

/-- Setting the current cell writes the residue, at one place only. -/
theorem setCurrent (h : t.Represents r) (v : BitVec w) : (t.setCurrent v).Represents (r.write (residue v)) where
  size := (t.size_setCurrent v).trans h.size
  pointer := h.pointer
  value i := by
    have hplace : (i : ZMod n) = r.pointer ↔ t.address i = t.pointer := by
      rw [← h.pointer_residue, ZMod.intCast_eq_intCast_iff', ← h.within.address, ← h.within.address,
        h.within.address_pointer]
    rw [h.within.valueAt_setCurrent]
    show _ = (Function.update r.cells r.pointer (residue v) i).val
    rw [Function.update_apply]
    by_cases hhit : t.address i = t.pointer
    · rw [if_pos hhit, if_pos (hplace.mpr hhit), val_residue]
    · rw [if_neg hhit, if_neg (mt hplace.mp hhit), h.value]

omit [NeZero n] in
theorem blank : (Tape.blank n : Tape w).Represents (ModularTape.blank (n := n)) where
  size := Array.size_replicate
  pointer := by
    show (0 : Int) = ((0 : ZMod n).val : Int)
    rw [ZMod.val_zero]
    rfl
  value i := by
    show _ = (0 : ZMod (2 ^ w)).val
    rw [ZMod.val_zero, valueAt, Tape.blank, Array.getD_eq_getD_getElem?, Array.getElem?_replicate]
    split <;> simp

/-- **A change of the tape is the change of its residues.** -/
theorem change (h : t.Represents r) (c : Change w) : (t.change c).Represents (r.change c) := by
  have hwithin := h.within
  cases c with
  | setCell v => exact h.setCurrent v
  | operate op =>
    cases op with
    | moveRight =>
      rw [Tape.change, perform, hwithin.moveRight_eq, ModularTape.change, ← h.pointer_residue]
      exact_mod_cast h.seek (t.pointer + 1)
    | moveLeft =>
      rw [Tape.change, perform, hwithin.moveLeft_eq, ModularTape.change, ← h.pointer_residue]
      exact_mod_cast h.seek (t.pointer - 1)
    | increment =>
      rw [ModularTape.change, ← h.current_residue, ← residue_succ]
      exact h.setCurrent (t.current + 1)
    | decrement =>
      rw [ModularTape.change, ← h.current_residue, ← residue_pred]
      exact h.setCurrent (t.current - 1)
    | setByte b =>
      rw [ModularTape.change, ← residue_ofNat]
      exact h.setCurrent (BitVec.ofNat w b.toNat)
    | setMax =>
      rw [ModularTape.change, ← residue_allOnes]
      exact h.setCurrent (BitVec.allOnes w)
    | setValue v =>
      rw [ModularTape.change, ← residue_ofNat]
      exact h.setCurrent (BitVec.ofNat w v)
    | seek i => exact h.seek i
    | reset =>
      rw [Tape.change, perform, reset, h.size]
      exact blank

theorem foldl_change (h : t.Represents r) (changes : List (Change w)) :
    (changes.foldl Tape.change t).Represents (changes.foldl ModularTape.change r) := by
  induction changes generalizing t r with
  | nil => exact h
  | cons c rest ih => exact ih (h.change c)

end Tape.Represents

/-! ### Words -/

/-- The remainder that a division of words leaves when it rounds toward zero, made nonnegative by one addition. -/
def Word.modulo (i size : Int64) : Int64 := if i % size < 0 then i % size + size else i % size

/-- No addition overflows, whatever the sign of the dividend and also for the least word. -/
theorem Word.toInt_modulo (i : Int64) {size : Int64} (hpos : 0 < size.toInt) :
    (Word.modulo i size).toInt = i.toInt % size.toInt := by
  have hlt := size.toInt_lt
  have hle := Int.emod_nonneg i.toInt (Int.ne_of_gt hpos)
  have hbound := Int.emod_lt_of_pos i.toInt hpos
  have habs : (size.toInt.natAbs : Int) = size.toInt := Int.natAbs_of_nonneg (Int.le_of_lt hpos)
  have hmod : (i % size).toInt = i.toInt % size.toInt ∨ (i % size).toInt = i.toInt % size.toInt - size.toInt := by
    rw [Int64.toInt_mod, Int.tmod_eq_emod]
    split <;> omega
  unfold Word.modulo
  by_cases hneg : i % size < 0
  · have hneg' := Int64.lt_iff_toInt_lt.mp hneg
    rw [Int64.toInt_zero] at hneg'
    rw [if_pos hneg, Int64.toInt_add, Int.bmod_eq_of_le (by omega) (by omega)]
    omega
  · have hneg' := mt Int64.lt_iff_toInt_lt.mpr hneg
    rw [Int64.toInt_zero] at hneg'
    rw [if_neg hneg]
    omega

/-! ### Iterated moves and increments -/

namespace Tape
variable {w n : Nat} {t : Tape w}

/-- Steps to the right add up. -/
theorem Within.moveRight_iterate (h : t.Within n) (k : Nat) : moveRight^[k] t = t.seek (t.pointer + k) := by
  induction k with
  | zero =>
    rw [Nat.cast_zero, add_zero, h.seek_pointer]
    rfl
  | succ k ih =>
    have hthere : (t.seek (t.pointer + k)).Within n := .seek h.size h.pos _
    rw [Function.iterate_succ_apply', ih, hthere.moveRight_eq]
    show t.seek (t.address (t.pointer + k) + 1) = _
    rw [seek_address_add, Nat.cast_succ, add_assoc]

/-- Increments add up. -/
theorem Within.increment_iterate (h : t.Within n) (k : Nat) :
    increment^[k] t = t.setCurrent (t.current + BitVec.ofNat w k) := by
  induction k with
  | zero =>
    show t = t.setCurrent (t.current + 0#w)
    rw [BitVec.add_zero, h.setCurrent_current]
  | succ k ih =>
    rw [Function.iterate_succ_apply', ih, increment, h.current_setCurrent, setCurrent_setCurrent, BitVec.ofNat_add,
      BitVec.add_assoc]
    rfl

/-- A change other than a reset leaves all cells alone, or the pointer and all cells but the current one. -/
theorem Within.frame (h : t.Within n) (c : Change w) (hc : c ≠ .operate .reset) :
    (t.change c).cells = t.cells ∨ (t.change c).pointer = t.pointer ∧
      ∀ i, t.address i ≠ t.pointer → (t.change c).valueAt i = t.valueAt i := by
  have hset (v : BitVec w) : (t.setCurrent v).pointer = t.pointer ∧
      ∀ i, t.address i ≠ t.pointer → (t.setCurrent v).valueAt i = t.valueAt i :=
    ⟨rfl, fun i hi => by rw [h.valueAt_setCurrent, if_neg hi]⟩
  cases c with
  | setCell v => exact .inr (hset v)
  | operate op =>
    cases op with
    | moveRight => exact .inl rfl
    | moveLeft => exact .inl rfl
    | seek i => exact .inl rfl
    | reset => exact absurd rfl hc
    | increment => exact .inr (hset _)
    | decrement => exact .inr (hset _)
    | setByte b => exact .inr (hset _)
    | setMax => exact .inr (hset _)
    | setValue v => exact .inr (hset _)

theorem Within.moveLeft_moveRight (h : t.Within n) : t.moveRight.moveLeft = t ∧ t.moveLeft.moveRight = t := by
  have hright : t.moveRight.Within n := h.perform .moveRight
  have hleft : t.moveLeft.Within n := h.perform .moveLeft
  rw [hright.moveLeft_eq, hleft.moveRight_eq, h.moveRight_eq, h.moveLeft_eq]
  constructor
  · show t.seek (t.address (t.pointer + 1) - 1) = t
    rw [Int.sub_eq_add_neg, seek_address_add, Int.add_neg_cancel_right, h.seek_pointer]
  · show t.seek (t.address (t.pointer - 1) + 1) = t
    rw [seek_address_add, Int.sub_add_cancel, h.seek_pointer]

/-- What holds of a tape of `n` cells at every moment. -/
structure ActsModularly (n : Nat) (t : Tape w) : Prop where
  /-- Every change is defined. -/
  ready : t.isReady = true
  attempts : ∀ op, t.attempt op = some (t.perform op)
  /-- A change other than a reset leaves all cells alone, or the pointer and all cells but the current one. -/
  frame : ∀ c : Change w, c ≠ .operate .reset → (t.change c).cells = t.cells ∨
    (t.change c).pointer = t.pointer ∧ ∀ i, t.address i ≠ t.pointer → (t.change c).valueAt i = t.valueAt i
  /-- A seek takes the residue of its index; on words one division and one addition find it. -/
  seeks : ∀ i : Int, (t.seek i).pointer = i % n ∧ 0 ≤ (t.seek i).pointer ∧ (t.seek i).pointer < n
  divides : ∀ i size : Int64, size.toInt = n → (t.seek i.toInt).pointer = (Word.modulo i size).toInt
  /-- The value at an index is that of the cell to which a seek goes. -/
  finds : ∀ i : Int, t.valueAt i = (t.seek i).current.toNat
  stores : ∀ v : Nat, (t.setValue v).valueAt t.pointer = v % 2 ^ w
  moves : ∀ k : Nat, moveRight^[k] t = t.seek (t.pointer + k)
  /-- Once around the ring, and once through the values of a cell. -/
  circuit : moveRight^[n] t = t
  turnover : increment^[2 ^ w] t = t
  undoes : t.moveRight.moveLeft = t ∧ t.moveLeft.moveRight = t ∧ t.increment.decrement = t ∧ t.decrement.increment = t

theorem Within.actsModularly (h : t.Within n) : t.ActsModularly n where
  ready := h.isReady
  attempts := h.attempt
  frame := h.frame
  seeks i := ⟨h.address i, (Within.seek h.size h.pos i).pointer⟩
  divides i size hsize := by
    have hpos := h.pos
    show t.address i.toInt = _
    rw [h.address, Word.toInt_modulo i (by omega), hsize]
  finds i := rfl
  stores v := by
    rw [setValue, h.valueAt_setCurrent, if_pos h.address_pointer, BitVec.toNat_ofNat]
  moves := h.moveRight_iterate
  circuit := by
    rw [h.moveRight_iterate, seek_congr, h.seek_pointer]
    rw [h.address, h.address, Int.add_emod_right]
  turnover := by
    have hzero : BitVec.ofNat w (2 ^ w) = 0#w := by
      apply BitVec.eq_of_toNat_eq
      rw [BitVec.toNat_ofNat, Nat.mod_self, BitVec.toNat_ofNat, Nat.zero_mod]
    rw [h.increment_iterate, hzero, BitVec.add_zero, h.setCurrent_current]
  undoes := by
    refine ⟨h.moveLeft_moveRight.1, h.moveLeft_moveRight.2, ?_, ?_⟩
    · rw [increment, decrement, h.current_setCurrent, setCurrent_setCurrent, BitVec.add_sub_cancel, h.setCurrent_current]
    · rw [decrement, increment, h.current_setCurrent, setCurrent_setCurrent, BitVec.sub_add_cancel, h.setCurrent_current]

/-- **The tape refines modular arithmetic.** Whatever is done to a blank tape of at least one cell, what comes out has
the representatives of the residues that the same changes lead to, and it goes on to act modularly. -/
theorem changes_are_modular (w n : Nat) (hn : 0 < n) (changes : List (Change w)) :
    (changes.foldl change (blank n)).Represents
        (changes.foldl ModularTape.change (ModularTape.blank : ModularTape w n)) ∧
      (changes.foldl change (blank n)).ActsModularly n := by
  have : NeZero n := ⟨Nat.ne_of_gt hn⟩
  have hrepresents : (changes.foldl change (blank n)).Represents
      (changes.foldl ModularTape.change (ModularTape.blank : ModularTape w n)) :=
    Represents.blank.foldl_change changes
  exact ⟨hrepresents, hrepresents.within.actsModularly⟩

/-- A seek below zero, a value that is too large, a step over the end and one below zero. -/
theorem changes_are_modular_three :
    let t : Tape 8 := [Change.operate (.seek (-4)), .operate (.setValue 300), .operate .moveRight,
      .operate .decrement].foldl change (blank 3)
    t = ⟨#[255, 0, 44], 0⟩ ∧ t.ActsModularly 3 :=
  ⟨by decide, (changes_are_modular 8 3 (by decide) _).2⟩

end Tape

end TapeMachine
