import TapeMachine.Instruction
import TapeMachine.Options
import TapeMachine.Tape
import TapeMachine.Proofs.Tree

/-! What a program means, without positions, jumps or buffers.

A `Scene` is all that a program can see and change: the tape, the bytes still to be read and those written
so far. A byte that is no bracket acts on the scene (`Scene.perform`), and a loop repeats its body for as
long as the current cell is not zero (`While`). `Tree.Evaluates` puts these together, following the tree of
the program, and counts instructions on the way: one for a byte, one for a loop that is not entered, and
two for every time around a loop, on top of what its body takes. -/
namespace TapeMachine

/-- What a program works on. -/
structure Scene (w : Nat) where
  tape : Tape w
  /-- The bytes that can still be read. -/
  input : List UInt8
  /-- The bytes written. -/
  output : List UInt8 := []
  /-- The number of bytes read. -/
  read : Nat := 0

namespace Scene
variable {w : Nat}

/-- Reads a byte into the current cell. Where there is none, the policy says what the cell becomes. -/
def accept (eof : EofPolicy) (s : Scene w) : Scene w :=
  match s.input with
  | b :: rest =>
    { s with tape := s.tape.setCurrent (BitVec.ofNat w b.toNat), input := rest, read := s.read + 1 }
  | [] =>
    let tape := match eof with
      | .zero => s.tape.setCurrent 0
      | .max => s.tape.setCurrent (BitVec.allOnes w)
      | .unchanged | .unknown _ => s.tape
    { s with tape }

/-- Moves the pointer `d` cells along the ring. A pointer that points to no cell has no ring to go around. -/
def move (d : Int) (s : Scene w) : Scene w :=
  let p := s.tape.pointer
  let n : Int := s.tape.cells.size
  { s with tape := { s.tape with pointer := if 0 ≤ p ∧ p < n then (p + d) % n else p + d } }

/-- What a byte that is no bracket does. -/
def perform (eof : EofPolicy) (byte : UInt8) (s : Scene w) : Scene w :=
  match Instruction.ofByte? byte with
  | some .right => s.move 1
  | some .left => s.move (-1)
  | some .increment => { s with tape := s.tape.setCurrent (s.tape.current + 1) }
  | some .decrement => { s with tape := s.tape.setCurrent (s.tape.current - 1) }
  | some .output => { s with output := s.output ++ [s.tape.current.toNat.toUInt8] }
  | some .input => s.accept eof
  | _ => s

theorem succ_around (p : Int) (n : Nat) :
    (if 0 ≤ p ∧ p < n then (p + 1) % n else p + 1) = if p + 1 = n then 0 else p + 1 := by
  by_cases hring : 0 ≤ p ∧ p < n
  · rw [if_pos hring]
    split
    · next hlast => rw [hlast, Int.emod_self]
    · exact Int.emod_eq_of_lt (by omega) (by omega)
  · rw [if_neg hring]
    split <;> omega

theorem pred_around (p : Int) (n : Nat) :
    (if 0 ≤ p ∧ p < n then (p + -1) % n else p + -1) = (if p = 0 then (n : Int) else p) - 1 := by
  by_cases hring : 0 ≤ p ∧ p < n
  · rw [if_pos hring]
    split
    · next hfirst =>
      rw [hfirst, ← Int.add_emod_right]
      exact (Int.emod_eq_of_lt (by omega) (by omega)).trans (by omega)
    · exact Int.emod_eq_of_lt (by omega) (by omega)
  · rw [if_neg hring]
    split <;> omega

theorem move_one (s : Scene w) : s.move 1 = { s with tape := s.tape.moveRight } := by
  simp only [move, succ_around]
  rfl

theorem move_neg_one (s : Scene w) : s.move (-1) = { s with tape := s.tape.moveLeft } := by
  simp only [move, pred_around]
  rfl

end Scene

section
variable {w : Nat}

/-- `body` repeated while the current cell is not zero, with the number of instructions taken. -/
inductive While (body : Scene w → Nat → Scene w → Prop) : Scene w → Nat → Scene w → Prop
  | stop {s : Scene w} : s.tape.current = 0 → While body s 0 s
  | again {s u v : Scene w} {n k : Nat} : s.tape.current ≠ 0 → body s n u → While body u k v →
      While body s (n + 2 + k) v

namespace While
variable {body : Scene w → Nat → Scene w → Prop} {s v : Scene w} {n : Nat}

/-- A loop is not entered on a zero cell. -/
theorem of_zero (h : While body s n v) (hzero : s.tape.current = 0) : n = 0 ∧ v = s := by
  cases h with
  | stop => exact ⟨rfl, rfl⟩
  | again hne => exact absurd hzero hne

theorem pos (h : While body s n v) (hne : s.tape.current ≠ 0) : 0 < n := by
  cases h with
  | stop hzero => exact absurd hzero hne
  | again => omega

end While

/-- A tree takes `s` to `v` in `n` instructions. -/
def Tree.Evaluates (eof : EofPolicy) : Tree → Scene w → Nat → Scene w → Prop
  | .done, s, n, v => n = 0 ∧ v = s
  | .plain byte _ rest, s, n, v => ∃ k, rest.Evaluates eof (s.perform eof byte) k v ∧ n = k + 1
  | .loop body rest, s, n, v =>
    ∃ u c k, While (body.Evaluates eof) s c u ∧ rest.Evaluates eof u k v ∧ n = max 1 c + k

end
end TapeMachine
