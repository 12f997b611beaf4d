import TapeMachine.Proofs.Lockstep

/-! Tapes with narrower cells.

Adding, subtracting, storing a byte and storing all ones do the same to the low bits of a cell whatever stands above
them, and output takes the low byte. So a tape with narrow cells goes along with a tape with wide ones as their low
bits (`Tape.narrow`), and the two can be told apart only by a bracket at a cell that is not zero but has low bits that
are. As long as no bracket on the way of the wide machine meets such a cell (`Machine.TestsLowByte`), the narrow one
runs in lockstep with it. -/
namespace TapeMachine

/-! ### The low bits of a tape -/

namespace Tape
variable {w v : Nat}

/-- The low `v` bits of every cell. -/
def narrow (v : Nat) (t : Tape w) : Tape v := ⟨t.cells.map (·.setWidth v), t.pointer⟩

theorem size_narrow (t : Tape w) : (t.narrow v).size = t.size := Array.size_map

theorem getD_narrow (t : Tape w) (i : Nat) : (t.narrow v).cells.getD i 0 = (t.cells.getD i 0).setWidth v := by
  rw [narrow, Array.getD_eq_getD_getElem?, Array.getElem?_map, Array.getD_eq_getD_getElem?]
  cases t.cells[i]? with
  | none => simp
  | some x => rfl

theorem current_narrow (t : Tape w) : (t.narrow v).current = t.current.setWidth v := t.getD_narrow t.pointer.toNat

theorem valueAt_narrow (t : Tape w) (i : Int) : (t.narrow v).valueAt i = t.valueAt i % Nat.pow 2 v := by
  rw [valueAt, address, size_narrow, getD_narrow, BitVec.toNat_setWidth]
  rfl

theorem setCurrent_narrow (t : Tape w) (x : BitVec w) :
    (t.setCurrent x).narrow v = (t.narrow v).setCurrent (x.setWidth v) := by
  simp only [narrow, setCurrent, Array.map_setIfInBounds]

section
variable (hle : v ≤ w) (t : Tape w)
include hle

theorem increment_narrow : t.increment.narrow v = (t.narrow v).increment := by
  have hone : (1 : BitVec w).setWidth v = 1 := BitVec.setWidth_ofNat_of_le hle 1
  rw [increment, setCurrent_narrow, BitVec.setWidth_add _ _ hle, hone, increment, current_narrow]

theorem decrement_narrow : t.decrement.narrow v = (t.narrow v).decrement := by
  have hone : (1 : BitVec w).setWidth v = 1 := BitVec.setWidth_ofNat_of_le hle 1
  have hsub : (t.current - 1).setWidth v = t.current.setWidth v - 1 := by
    rw [BitVec.eq_sub_iff_add_eq, ← hone, ← BitVec.setWidth_add _ _ hle, BitVec.sub_add_cancel]
  rw [decrement, setCurrent_narrow, hsub, decrement, current_narrow]

theorem setByte_narrow (b : UInt8) : (t.setByte b).narrow v = (t.narrow v).setByte b := by
  rw [setByte, setCurrent_narrow, BitVec.setWidth_ofNat_of_le hle, setByte]

theorem setMax_narrow : t.setMax.narrow v = (t.narrow v).setMax := by
  have hones : (BitVec.allOnes w).setWidth v = BitVec.allOnes v := by
    ext i hi
    simp
    omega
  rw [setMax, setCurrent_narrow, hones, setMax]

end

/-- The low byte is among the low bits. -/
theorem byte_narrow (hbyte : 8 ≤ v) (t : Tape w) : (t.narrow v).byte = t.byte := by
  apply UInt8.toNat_inj.mp
  rw [byte, byte, current_narrow, BitVec.toNat_setWidth]
  show t.current.toNat % Nat.pow 2 v % Nat.pow 2 8 = t.current.toNat % Nat.pow 2 8
  exact Nat.mod_mod_of_dvd _ (Nat.pow_dvd_pow 2 hbyte)

theorem moveRight_narrow (t : Tape w) : t.moveRight.narrow v = (t.narrow v).moveRight := by
  rw [moveRight, moveRight, size_narrow]
  rfl

theorem moveLeft_narrow (t : Tape w) : t.moveLeft.narrow v = (t.narrow v).moveLeft := by
  rw [moveLeft, moveLeft, size_narrow]
  rfl

/-- The low bits answer for the whole cell, if it is zero where they are. -/
theorem isZero_narrow {t : Tape w} (h : t.current.toNat % Nat.pow 2 v = 0 → t.current.toNat = 0) :
    (t.narrow v).isZero = t.isZero := by
  rw [isZero, isZero, current_narrow]
  by_cases hzero : t.current = 0
  · rw [hzero]
    simp
  · have hlow : t.current.setWidth v ≠ 0 := by
      intro hnone
      have hbits := congrArg BitVec.toNat hnone
      rw [BitVec.toNat_setWidth] at hbits
      exact hzero (BitVec.eq_of_toNat_eq (h hbits))
    rw [beq_false_of_ne hlow, beq_false_of_ne hzero]

/-- Tapes of one size with the same pointer and the same value at every index are the same. -/
theorem eq_of_valueAt {t u : Tape w} (hsize : u.size = t.size) (hpointer : u.pointer = t.pointer)
    (hvalue : ∀ i, u.valueAt i = t.valueAt i) : u = t := by
  obtain ⟨cells, pointer⟩ := t
  obtain ⟨cells', pointer'⟩ := u
  obtain rfl : pointer' = pointer := hpointer
  congr 1
  refine Array.ext hsize fun i hi' hi => ?_
  have hcell := hvalue i
  have haddress (size : Nat) (h : i < size) : ((i : Int) % (size : Int)).toNat = i := by
    rw [← Int.natCast_emod, Int.toNat_natCast, Nat.mod_eq_of_lt h]
  simp only [valueAt, address, size, haddress _ hi', haddress _ hi, Array.getD_eq_getD_getElem?,
    Array.getElem?_eq_getElem hi', Array.getElem?_eq_getElem hi, Option.getD_some] at hcell
  exact BitVec.eq_of_toNat_eq hcell

/-- The second tape is as long as the first and points to the same cell, and its cells agree with those of the first
modulo 256. -/
structure LowBytes (t : Tape 16) (u : Tape 8) : Prop where
  size : u.size = t.size
  pointer : u.pointer = t.pointer
  value : ∀ i, u.valueAt i = t.valueAt i % 256

theorem lowBytes_iff {t : Tape 16} {u : Tape 8} : t.LowBytes u ↔ u = t.narrow 8 := by
  constructor
  · intro h
    refine eq_of_valueAt (h.size.trans t.size_narrow.symm) h.pointer fun i => ?_
    rw [h.value, valueAt_narrow]
  · rintro rfl
    exact ⟨t.size_narrow, rfl, t.valueAt_narrow⟩

end Tape

/-! ### Machines -/

/-- Machines on the same streams, of which the second has the low `v` bits of the cells of the first. -/
def Coupling.narrowing {w v : Nat} (hbyte : 8 ≤ v) (hle : v ≤ w) : Coupling w v where
  toStreams := .same
  tape t u := u = t.narrow v
  byte h := by rw [h, Tape.byte_narrow hbyte]
  moveRight h := by rw [h, Tape.moveRight_narrow]
  moveLeft h := by rw [h, Tape.moveLeft_narrow]
  increment h := by rw [h, Tape.increment_narrow hle]
  decrement h := by rw [h, Tape.decrement_narrow hle]
  setByte h b := by rw [h, Tape.setByte_narrow hle]
  setMax h := by rw [h, Tape.setMax_narrow hle]

namespace Machine

/-- A bracket that is due is at a cell that is zero if its low byte is. -/
def TestsLowByte (task : Task) (m : Machine 16) : Prop :=
  ∀ byte, m.due task = some byte → Brackets.isBracket byte = true →
    m.tape.current.toNat % 256 = 0 → m.tape.current.toNat = 0

/-- Without brackets there is nothing to test. -/
theorem testsLowByte_of_plain {task : Task} (hplain : ∀ byte ∈ task.program, Brackets.isBracket byte = false)
    (m : Machine 16) : m.TestsLowByte task := by
  intro byte hdue hb
  have hmem : byte ∈ task.program := Array.mem_of_getElem? (program_of_due hdue)
  cases hb.symm.trans (hplain byte hmem)

theorem TestsLowByte.testsAlike {task : Task} {m : Machine 16} (h : m.TestsLowByte task) :
    TestsAlike (Coupling.narrowing (by decide : 8 ≤ 8) (by decide : 8 ≤ 16)) task m := by
  rintro byte hdue hb u rfl
  exact Tape.isZero_narrow (h byte hdue hb)

/-- **A tape of bytes is the low-byte image of a tape of double bytes**, as long as loop tests agree. Whatever the
task and the streams: if every bracket that the wide machine executes is at a cell that is zero where its low byte is,
the two stop alike, with the same result, fault, output and input left, on tapes whose cells agree modulo 256, or
neither stops. Programs without brackets always meet the condition. -/
theorem low_bytes_in_step (task : Task) (t : Tape 16) (u : Tape 8) (hlow : t.LowBytes u) (input : Input)
    (sink : Option Sink) (signal : Signal) :
    ((signal.isRaised = false → ∀ visited m, Run task (fresh t input sink signal) visited m → m.TestsLowByte task) →
      ∀ fuel, Option.Rel (fun a b => a.SameButTape b ∧ a.machine.tape.LowBytes b.machine.tape)
        ((fresh t input sink signal).launch task fuel) ((fresh u input sink signal).launch task fuel)) ∧
    ((∀ byte ∈ task.program, Brackets.isBracket byte = false) →
      ∀ visited m, Run task (fresh t input sink signal) visited m → m.TestsLowByte task) := by
  refine ⟨fun htests fuel => ?_, fun hplain _ m _ => testsLowByte_of_plain hplain m⟩
  have hstart : (Coupling.narrowing (by decide : 8 ≤ 8) (by decide : 8 ≤ 16)).tape t u := Tape.lowBytes_iff.mp hlow
  exact launch_same rfl hstart (fun hquiet visited m hrun => (htests hquiet visited m hrun).testsAlike)
    Tape.lowBytes_iff.mpr fuel

/-- A loop whose test reads a wide cell once, and whose body runs over the end of a narrow one. -/
theorem low_bytes_in_step_overflow :
    let task : Task := { program := #[0x5b, 0x3e, 0x2b, 0x3c, 0x2c, 0x5d, 0x3e, 0x2e]
                         jumps := ⟨#[some 5, none, none, none, none, some 0, none, none], 1⟩
                         eof := .zero }
    let t : Tape 16 := ⟨#[0x141, 0xff], 0⟩
    let u : Tape 8 := ⟨#[0x41, 0xff], 0⟩
    ∃ a b, (fresh t .absent (some {}) .clear).launch task 9 = some a ∧
      (fresh u .absent (some {}) .clear).launch task 9 = some b ∧ a.machine.tape = ⟨#[0, 0x100], 1⟩ ∧
      a.SameButTape b ∧ a.machine.tape.LowBytes b.machine.tape := by
  intro task t u
  have hwhole : Run task (fresh t .absent (some {}) .clear) _ _ :=
    .cons rfl (.cons rfl (.cons rfl (.cons rfl (.cons rfl (.cons rfl (.cons rfl (.cons rfl (.nil _))))))))
  have htests : ∀ visited m, Run task (fresh t .absent (some {}) .clear) visited m → m.TestsLowByte task := by
    intro visited m hrun byte hdue hb hlow
    let decides : Machine 16 → Bool := fun k => (k.due task).all fun byte =>
      !Brackets.isBracket byte || k.tape.current.toNat % 256 != 0 || k.tape.current.toNat == 0
    have hm : decides m = true := List.all_eq_true.mp (by decide +kernel) m (hwhole.mem_of_stopped rfl hrun)
    simpa [decides, hdue, hb, hlow] using hm
  have hlaunch := (low_bytes_in_step task t u (Tape.lowBytes_iff.mpr (by decide +kernel)) .absent (some {}) .clear).1
    (fun _ => htests) 9
  have htape : ((fresh t .absent (some {}) .clear).launch task 9).map (·.machine.tape) = some ⟨#[0, 0x100], 1⟩ := by
    decide +kernel
  obtain ⟨a, ha, htape⟩ := Option.map_eq_some_iff.mp htape
  rw [ha] at hlaunch
  generalize (fresh u .absent (some {}) .clear).launch task 9 = q at hlaunch ⊢
  cases hlaunch with
  | some halike => exact ⟨a, _, ha, rfl, htape, halike⟩

end Machine
end TapeMachine
