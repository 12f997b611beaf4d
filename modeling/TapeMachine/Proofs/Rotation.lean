import TapeMachine.Proofs.Lockstep
import TapeMachine.Proofs.ModularTape

/-! Tapes that are rotated.

No cell of a tape is special: rotate the tape with its pointer by any number of places (`Tape.Rotated`), and every
operation of a machine does the same as before and leaves the tapes rotated by as much. Moves are seeks, and counting
around the ring commutes with counting on (`Rotated.seek`); a cell that is set is the same cell (`Rotated.setCurrent`).
So the machines run in lockstep, on the same streams. -/
namespace TapeMachine

namespace Tape
variable {w n : Nat} {t u : Tape w} {k : Int}

/-- The second tape is the first one rotated by `k` places: the pointer is so much further on, and so is what every
index stands for. -/
structure Rotated (k : Int) (t u : Tape w) : Prop where
  size : u.size = t.size
  pointer : u.pointer = (t.pointer + k) % t.size
  value : ∀ i, u.valueAt (i + k) = t.valueAt i

/-- The tape rotated by `k` places. -/
def rotate (k : Int) (t : Tape w) : Tape w where
  cells := Array.ofFn fun i : Fin t.size => t.cells.getD (t.address (i - k)).toNat 0
  pointer := t.address (t.pointer + k)

theorem Within.rotated (h : t.Within n) (k : Int) : t.Rotated k (t.rotate k) where
  size := Array.size_ofFn
  pointer := rfl
  value i := by
    have hpos := h.pos
    have hsize : (t.rotate k).size = n := Array.size_ofFn.trans h.size
    have hnonneg : 0 ≤ (i + k) % (n : Int) := Int.emod_nonneg _ (by omega)
    have hlt : ((i + k) % (n : Int)).toNat < t.size := by
      have := Int.emod_lt_of_pos (i + k) (show (0 : Int) < n by omega)
      rw [h.size]
      omega
    have hback : t.address (((i + k) % (n : Int)).toNat - k) = t.address i := by
      rw [Int.toNat_of_nonneg hnonneg, h.address, h.address, Int.emod_sub_emod, Int.add_sub_cancel]
    rw [valueAt, Tape.address, hsize, rotate, Array.getD_eq_getD_getElem?, Array.getElem?_ofFn, dif_pos hlt,
      Option.getD_some, hback, valueAt]

namespace Rotated

theorem within (h : t.Rotated k u) (ht : t.Within n) : u.Within n := by
  have hpos := ht.pos
  refine ⟨h.size.trans ht.size, ?_⟩
  rw [h.pointer, ht.size]
  exact ⟨Int.emod_nonneg _ (by omega), Int.emod_lt_of_pos _ (by omega)⟩

theorem seek (h : t.Rotated k u) (i : Int) : (t.seek i).Rotated k (u.seek (i + k)) where
  size := h.size
  pointer := by
    show (i + k) % (u.size : Int) = (i % (t.size : Int) + k) % (t.size : Int)
    rw [h.size, Int.emod_add_emod]
  value := h.value

/-- Steps from the rotated pointer are rotated steps. -/
theorem seek_add (h : t.Rotated k u) (j : Int) : (t.seek (t.pointer + j)).Rotated k (u.seek (u.pointer + j)) := by
  have hseek : u.seek (u.pointer + j) = u.seek (t.pointer + j + k) := by
    apply seek_congr
    rw [h.pointer, Tape.address, h.size, Int.emod_add_emod, Int.add_right_comm, Tape.address, h.size]
  rw [hseek]
  exact h.seek _

theorem moveRight (h : t.Rotated k u) (ht : t.Within n) : t.moveRight.Rotated k u.moveRight := by
  rw [ht.moveRight_eq, (h.within ht).moveRight_eq]
  exact h.seek_add 1

theorem moveLeft (h : t.Rotated k u) (ht : t.Within n) : t.moveLeft.Rotated k u.moveLeft := by
  rw [ht.moveLeft_eq, (h.within ht).moveLeft_eq]
  exact h.seek_add (-1)

theorem current (h : t.Rotated k u) (ht : t.Within n) : u.current = t.current := by
  have hindex : u.valueAt u.pointer = u.valueAt (t.pointer + k) := by
    rw [valueAt, valueAt, h.pointer, Tape.address, Tape.address, h.size, Int.emod_emod]
  apply BitVec.eq_of_toNat_eq
  rw [← (h.within ht).valueAt_pointer, hindex, h.value, ht.valueAt_pointer]

/-- The current cells are set at indices that stand for each other. -/
theorem setCurrent (h : t.Rotated k u) (ht : t.Within n) (v : BitVec w) :
    (t.setCurrent v).Rotated k (u.setCurrent v) where
  size := by rw [size_setCurrent, size_setCurrent, h.size]
  pointer := by
    rw [size_setCurrent]
    exact h.pointer
  value i := by
    have hhit : u.address (i + k) = u.pointer ↔ t.address i = t.pointer := by
      rw [h.pointer, Tape.address, h.size, Int.emod_add_cancel_right, ← Tape.address, ← Tape.address,
        ht.address_pointer]
    rw [(h.within ht).valueAt_setCurrent, ht.valueAt_setCurrent, h.value]
    simp only [hhit]

end Rotated
end Tape

/-- Machines on the same streams, on tapes of `n` cells of which one is the other rotated by `k` places. -/
def Coupling.rotation (w n : Nat) (k : Int) : Coupling w w where
  toStreams := .same
  tape t u := t.Within n ∧ t.Rotated k u
  byte h := by rw [Tape.byte, Tape.byte, h.2.current h.1]
  moveRight h := ⟨h.1.perform .moveRight, h.2.moveRight h.1⟩
  moveLeft h := ⟨h.1.perform .moveLeft, h.2.moveLeft h.1⟩
  increment h := ⟨h.1.perform .increment, by
    rw [Tape.increment, Tape.increment, h.2.current h.1]
    exact h.2.setCurrent h.1 _⟩
  decrement h := ⟨h.1.perform .decrement, by
    rw [Tape.decrement, Tape.decrement, h.2.current h.1]
    exact h.2.setCurrent h.1 _⟩
  setByte h b := ⟨h.1.perform (.setByte b), h.2.setCurrent h.1 _⟩
  setMax h := ⟨h.1.perform .setMax, h.2.setCurrent h.1 _⟩

namespace Machine

/-- **Execution commutes with rotation.** Every tape whose pointer points to a cell can be rotated by any number of
places, and any task then stops as it does on the tape as it was, with the same result, fault, output and input left,
on the final tape rotated by as much; or it stops on neither. -/
theorem rotation_commutes {w : Nat} (task : Task) (t : Tape w) (hready : t.isReady = true) (k : Int) :
    t.Rotated k (t.rotate k) ∧ ∀ u, t.Rotated k u → ∀ input sink signal fuel,
      Option.Rel (fun a b => a.SameButTape b ∧ a.machine.tape.Rotated k b.machine.tape)
        ((fresh t input sink signal).launch task fuel) ((fresh u input sink signal).launch task fuel) := by
  have hwithin := Tape.within_of_isReady hready
  refine ⟨hwithin.rotated k, fun u hu input sink signal fuel => ?_⟩
  have hstart : (Coupling.rotation w t.size k).tape t u := ⟨hwithin, hu⟩
  have htest {t u : Tape w} {n : Nat} (h : (Coupling.rotation w n k).tape t u) : u.isZero = t.isZero := by
    rw [Tape.isZero, Tape.isZero, h.2.current h.1]
  exact launch_same rfl hstart (fun _ _ _ _ _ _ _ _ hv => htest hv) (fun h => h.2) fuel

/-- A loop that moves a cell over the end of the tape moves it inside the rotated one. -/
theorem rotation_commutes_over_end :
    let task : Task := { program := #[0x5b, 0x2d, 0x3e, 0x2b, 0x3c, 0x5d]
                         jumps := ⟨#[some 5, none, none, none, none, some 0], 1⟩ }
    let t : Tape 8 := ⟨#[0, 0, 1], 2⟩
    t.rotate 2 = ⟨#[0, 1, 0], 1⟩ ∧ ∃ a b : Halt 8, (fresh t .absent none .clear).launch task 8 = some a ∧
      (fresh (t.rotate 2) .absent none .clear).launch task 8 = some b ∧ a.machine.tape = ⟨#[1, 0, 0], 2⟩ ∧
      a.SameButTape b ∧ a.machine.tape.Rotated 2 b.machine.tape := by
  intro task t
  obtain ⟨hrotated, hruns⟩ := rotation_commutes task t (by decide) 2
  have hlaunch := hruns _ hrotated .absent none .clear 8
  have htape : ((fresh t .absent none .clear).launch task 8).map (·.machine.tape) = some ⟨#[1, 0, 0], 2⟩ := by
    decide +kernel
  obtain ⟨a, ha, htape⟩ := Option.map_eq_some_iff.mp htape
  rw [ha] at hlaunch
  refine ⟨by decide, ?_⟩
  generalize (fresh (t.rotate 2) .absent none .clear).launch task 8 = q at hlaunch ⊢
  cases hlaunch with
  | some halike => exact ⟨a, _, ha, rfl, htape, halike⟩

end Machine
end TapeMachine
