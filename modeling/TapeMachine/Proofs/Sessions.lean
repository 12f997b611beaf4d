import TapeMachine.Proofs.Delivery
import TapeMachine.Session

/-! The states of a session.

A session is created and then turned, reset, restored, and its tape operated on; `Reachable` is any finite
history of these. Whatever the history, the tape keeps the size and the width that the options ask for and
its pointer points to a cell (`WellFormed`), because every step of a machine either leaves the tape alone or
performs one operation on it. A snapshot names size, width, pointer and the cells that are not zero, and
these determine the store (`store_of_snapshot`); restoring the snapshot of a well-formed session gives its
store back (`restoredStore_snapshot`). -/
namespace TapeMachine

/-- What options meet that there is no objection to. -/
theorem Options.bounds_of_objection? {o : Options} (h : o.objection? = none) :
    0 < o.tapeSize ∧ o.tapeSize ≤ greatestTapeSize ∧ (o.cellWidth = 8 ∨ o.cellWidth = 16) ∧
      o.eof.isKnown = true ∧ 0 ≤ o.maxSteps := by
  unfold objection? at h
  split at h
  · cases h
  split at h
  · cases h
  split at h
  · cases h
  split at h
  · cases h
  split at h
  · cases h
  · refine ⟨by omega, by omega, by omega, ?_, by omega⟩
    rename_i hknown _
    exact Decidable.not_not.mp hknown

/-! ### Tapes -/

namespace Tape
variable {w : Nat}

/-- The tape has `n` cells, and its pointer points to one of them. -/
structure Within (n : Nat) (t : Tape w) : Prop where
  size : t.size = n
  pointer : 0 ≤ t.pointer ∧ t.pointer < n

theorem size_setCurrent (t : Tape w) (v : BitVec w) : (t.setCurrent v).size = t.size :=
  Array.size_setIfInBounds

theorem Within.setCurrent {size : Nat} {t : Tape w} (h : t.Within size) (v : BitVec w) :
    (t.setCurrent v).Within size :=
  ⟨(t.size_setCurrent v).trans h.size, h.pointer⟩

theorem Within.blank {size : Nat} (hpos : 0 < size) : (Tape.blank size : Tape w).Within size :=
  ⟨Array.size_replicate, Int.le_refl 0, Int.natCast_pos.mpr hpos⟩

theorem Within.seek {size : Nat} {t : Tape w} (hsize : t.size = size) (hpos : 0 < size) (i : Int) :
    (t.seek i).Within size := by
  refine ⟨hsize, ?_⟩
  simp only [Tape.seek, address, hsize]
  exact ⟨Int.emod_nonneg i (by omega), Int.emod_lt_of_pos i (by omega)⟩

/-- No operation moves the pointer off the tape or changes the number of cells. -/
theorem Within.perform {size : Nat} {t : Tape w} (h : t.Within size) (op : Operation) :
    (t.perform op).Within size := by
  have hpos : 0 < size := by
    have := h.pointer
    omega
  cases op with
  | moveRight =>
    have hp := h.pointer
    refine ⟨h.size, ?_⟩
    simp only [Tape.perform, Tape.moveRight, h.size]
    split <;> omega
  | moveLeft =>
    have hp := h.pointer
    refine ⟨h.size, ?_⟩
    simp only [Tape.perform, Tape.moveLeft, h.size]
    split <;> omega
  | increment => exact h.setCurrent _
  | decrement => exact h.setCurrent _
  | setByte b => exact h.setCurrent _
  | setMax => exact h.setCurrent _
  | setValue v => exact h.setCurrent _
  | seek i => exact .seek h.size hpos i
  | reset =>
    rw [Tape.perform, Tape.reset, h.size]
    exact .blank hpos

/-! ### The cells that are not zero -/

/-- The nonzero cells before position `n` are listed in front of `rest`. -/
theorem mem_nonzeroBefore (t : Tape w) (n : Nat) (rest : List (Nat × Nat)) (c : Nat × Nat) :
    c ∈ t.nonzeroBefore n rest ↔
      (c.1 < n ∧ c.2 = (t.cells.getD c.1 0).toNat ∧ c.2 ≠ 0) ∨ c ∈ rest := by
  induction n generalizing rest with
  | zero => simp [nonzeroBefore]
  | succ n ih =>
    rw [nonzeroBefore, ih]
    obtain ⟨i, v⟩ := c
    by_cases hzero : (t.cells.getD n 0).toNat = 0
    · rw [if_pos hzero]
      constructor
      · rintro (⟨hlt, hv, hne⟩ | hmem)
        · exact .inl ⟨Nat.lt_succ_of_lt hlt, hv, hne⟩
        · exact .inr hmem
      · rintro (⟨hlt, hv, hne⟩ | hmem)
        · refine .inl ⟨Nat.lt_of_le_of_ne (Nat.le_of_lt_succ hlt) ?_, hv, hne⟩
          rintro rfl
          exact hne (hv.trans hzero)
        · exact .inr hmem
    · rw [if_neg hzero, List.mem_cons]
      constructor
      · rintro (⟨hlt, hv, hne⟩ | heq | hmem)
        · exact .inl ⟨Nat.lt_succ_of_lt hlt, hv, hne⟩
        · obtain ⟨rfl, rfl⟩ := Prod.mk.inj heq
          exact .inl ⟨Nat.lt_succ_self i, rfl, hzero⟩
        · exact .inr hmem
      · rintro (⟨hlt, hv, hne⟩ | hmem)
        · by_cases hi : i = n
          · subst hi
            exact .inr (.inl (Prod.ext rfl hv))
          · exact .inl ⟨Nat.lt_of_le_of_ne (Nat.le_of_lt_succ hlt) hi, hv, hne⟩
        · exact .inr (.inr hmem)

theorem mem_nonzero (t : Tape w) (c : Nat × Nat) :
    c ∈ t.nonzero ↔ c.1 < t.size ∧ c.2 = (t.cells.getD c.1 0).toNat ∧ c.2 ≠ 0 := by
  rw [nonzero, mem_nonzeroBefore]
  simp

theorem ascending_nonzeroBefore (t : Tape w) (n : Nat) {rest : List (Nat × Nat)}
    (hrest : rest.Pairwise (·.1 < ·.1)) (hle : ∀ c ∈ rest, n ≤ c.1) :
    (t.nonzeroBefore n rest).Pairwise (·.1 < ·.1) := by
  induction n generalizing rest with
  | zero => exact hrest
  | succ n ih =>
    rw [nonzeroBefore]
    apply ih
    · split
      · exact hrest
      · exact List.pairwise_cons.mpr ⟨hle, hrest⟩
    · intro c hc
      split at hc
      · exact Nat.le_of_succ_le (hle c hc)
      · rcases List.mem_cons.mp hc with rfl | hc
        · exact Nat.le_refl n
        · exact Nat.le_of_succ_le (hle c hc)

theorem ascending_nonzero (t : Tape w) : t.nonzero.Pairwise (·.1 < ·.1) :=
  t.ascending_nonzeroBefore t.size .nil (fun _ hc => by cases hc)

/-- Tapes of one size whose nonzero cells are the same have the same cells. -/
theorem cells_of_nonzero {t u : Tape w} (hsize : u.size = t.size) (h : u.nonzero = t.nonzero) :
    u.cells = t.cells := by
  refine Array.ext hsize (fun i hu ht => ?_)
  have hgetu : u.cells.getD i 0 = u.cells[i] := by simp [Array.getD, hu]
  have hgett : t.cells.getD i 0 = t.cells[i] := by simp [Array.getD, ht]
  apply BitVec.eq_of_toNat_eq
  by_cases hzero : u.cells[i].toNat = 0
  · rw [hzero]
    by_cases hzero' : t.cells[i].toNat = 0
    · exact hzero'.symm
    · have hmem : (i, t.cells[i].toNat) ∈ u.nonzero := by
        rw [h, mem_nonzero]
        exact ⟨ht, by rw [hgett], hzero'⟩
      rw [mem_nonzero, hgetu] at hmem
      exact absurd (hmem.2.1.trans hzero) hzero'
  · have hmem : (i, u.cells[i].toNat) ∈ t.nonzero := by
      rw [← h, mem_nonzero]
      exact ⟨hu, by rw [hgetu], hzero⟩
    rw [mem_nonzero, hgett] at hmem
    exact hmem.2.1

end Tape

/-! ### Writing cells -/

namespace Session
variable {w : Nat}

/-- Writing cells one after the other changes those that are named, if each is named once and lies on the
tape. -/
theorem writeCells_spec (t : Tape w) {cells : List (Int × Nat)}
    (hrange : ∀ c ∈ cells, 0 ≤ c.1 ∧ c.1 < t.size) (hdistinct : cells.Pairwise (·.1 ≠ ·.1)) :
    (writeCells t cells).size = t.size ∧
      (∀ c ∈ cells, (writeCells t cells).cells.getD c.1.toNat 0 = BitVec.ofNat w c.2) ∧
      ∀ i : Nat, (∀ c ∈ cells, c.1 ≠ (i : Int)) →
        (writeCells t cells).cells.getD i 0 = t.cells.getD i 0 := by
  induction cells generalizing t with
  | nil => exact ⟨rfl, fun c hc => (by cases hc), fun _ _ => rfl⟩
  | cons c rest ih =>
    obtain ⟨k, v⟩ := c
    obtain ⟨hne, hdistinct⟩ := List.pairwise_cons.mp hdistinct
    obtain ⟨hk, hlt⟩ := hrange (k, v) (List.mem_cons_self ..)
    let t' : Tape w := (t.seek k).setValue v
    have hsize : t'.size = t.size := Tape.size_setCurrent _ _
    have hkey : t.address k = k := Int.emod_eq_of_lt hk hlt
    have hcell (i : Nat) : t'.cells.getD i 0 =
        if k.toNat = i then BitVec.ofNat w v else t.cells.getD i 0 := by
      have hin : k.toNat < t.cells.size := by
        have : k < t.cells.size := hlt
        omega
      simp only [t', Tape.setValue, Tape.setCurrent, Tape.seek, hkey, Array.getD_eq_getD_getElem?,
        Array.getElem?_setIfInBounds, hin, if_true]
      split <;> rfl
    obtain ⟨hsize', hnamed, hother⟩ := ih t'
      (fun c hc => by rw [hsize]; exact hrange c (List.mem_cons_of_mem _ hc)) hdistinct
    refine ⟨hsize'.trans hsize, fun c hc => ?_, fun i hi => ?_⟩
    · rcases List.mem_cons.mp hc with rfl | hc
      · -- A cell just written is not written again.
        have hrest : ∀ c ∈ rest, c.1 ≠ (k.toNat : Int) := fun c hc heq =>
          hne c hc (by rw [heq]; exact (Int.toNat_of_nonneg hk).symm)
        exact (hother k.toNat hrest).trans ((hcell k.toNat).trans (if_pos rfl))
      · exact hnamed c hc
    · have hki : k ≠ (i : Int) := hi (k, v) (List.mem_cons_self ..)
      rw [show writeCells t ((k, v) :: rest) = writeCells t' rest from rfl,
        hother i (fun c hc => hi c (List.mem_cons_of_mem _ hc)), hcell, if_neg (by omega)]

theorem size_writeCells (t : Tape w) (cells : List (Int × Nat)) :
    (writeCells t cells).size = t.size := by
  unfold writeCells
  induction cells generalizing t with
  | nil => rfl
  | cons c rest ih => exact (ih _).trans (Tape.size_setCurrent _ _)

/-- Writing the nonzero cells of a tape on a blank one of the same size copies the tape. -/
theorem cells_writeCells_nonzero {t u : Tape w} (hsize : u.size = t.size) :
    (writeCells u.reset (t.nonzero.map fun (i, v) => ((i : Int), v))).cells = t.cells := by
  have hblank : u.reset.size = t.size := Array.size_replicate.trans hsize
  have hrange : ∀ c ∈ t.nonzero.map (fun (i, v) => ((i : Int), v)),
      0 ≤ c.1 ∧ c.1 < (u.reset.size : Int) := by
    intro c hc
    obtain ⟨⟨i, v⟩, hmem, rfl⟩ := List.mem_map.mp hc
    have := ((t.mem_nonzero _).mp hmem).1
    exact ⟨Int.natCast_nonneg i, by rw [hblank]; exact Int.ofNat_lt.mpr this⟩
  have hdistinct : (t.nonzero.map fun (i, v) => ((i : Int), v)).Pairwise (·.1 ≠ ·.1) := by
    refine List.pairwise_map.mpr (t.ascending_nonzero.imp fun hlt => ?_)
    exact fun heq => Nat.ne_of_lt hlt (Int.ofNat.inj heq)
  obtain ⟨hsize', hnamed, hother⟩ := writeCells_spec u.reset hrange hdistinct
  refine Array.ext (hsize'.trans hblank) (fun i hi ht => ?_)
  have hget {t : Tape w} (h : i < t.cells.size) : t.cells.getD i 0 = t.cells[i] := by
    simp [Array.getD, h]
  rw [← hget hi, ← hget ht]
  by_cases hzero : (t.cells.getD i 0).toNat = 0
  · -- A zero cell is not listed, and the blank tape has a zero there.
    rw [hother i]
    · have hcell : t.cells.getD i 0 = 0 := BitVec.eq_of_toNat_eq (by rw [hzero]; rfl)
      rw [hcell]
      simp [Tape.reset, Tape.blank, Array.getD]
    · intro c hc heq
      obtain ⟨⟨j, v⟩, hmem, rfl⟩ := List.mem_map.mp hc
      obtain rfl : j = i := Int.ofNat.inj heq
      have := (t.mem_nonzero _).mp hmem
      exact this.2.2 (this.2.1.trans hzero)
  · have hmem : (i, (t.cells.getD i 0).toNat) ∈ t.nonzero := (t.mem_nonzero _).mpr ⟨ht, rfl, hzero⟩
    have := hnamed _ (List.mem_map_of_mem hmem)
    rw [show ((i : Int)).toNat = i from rfl, BitVec.ofNat_toNat, BitVec.setWidth_eq] at this
    exact this

/-! ### Snapshots -/

/-- A snapshot determines the store and the number of turns. -/
theorem store_of_snapshot {r s : Session} (h : r.snapshot = s.snapshot) :
    r.store = s.store ∧ r.turns = s.turns := by
  obtain ⟨options, ⟨w, t⟩, input, sink, turns, loops, threshold⟩ := r
  obtain ⟨options', ⟨w', t'⟩, input', sink', turns', loops', threshold'⟩ := s
  obtain ⟨hsize, hwidth, -, hpointer, hturns, hcells⟩ := Snapshot.mk.inj h
  obtain rfl : w = w' := Int.ofNat.inj hwidth
  have hsize : t.size = t'.size := Int.ofNat.inj hsize
  have hnonzero : t.nonzero = t'.nonzero := by
    have := congrArg (List.map fun (c : Int × Nat) => (c.1.toNat, c.2)) hcells
    simpa [List.map_map, Function.comp_def, Store.nonzero] using this
  have hcells := Tape.cells_of_nonzero hsize hnonzero
  obtain ⟨cells, pointer⟩ := t
  obtain ⟨cells', pointer'⟩ := t'
  obtain rfl : cells = cells' := hcells
  obtain rfl : pointer = pointer' := hpointer
  exact ⟨rfl, hturns⟩

/-- Restoring the snapshot of a session, on a tape of its size and width, gives its store back. -/
theorem restoredStore_snapshot {r s : Session} (hwidth : r.store.width = s.store.width)
    (hsize : r.store.size = s.store.size)
    (hpointer : 0 ≤ s.store.pointer ∧ s.store.pointer < s.store.size) :
    r.restoredStore s.snapshot = s.store := by
  obtain ⟨options, ⟨w, t⟩, input, sink, turns, loops, threshold⟩ := r
  obtain ⟨options', ⟨w', t'⟩, input', sink', turns', loops', threshold'⟩ := s
  obtain rfl : w = w' := hwidth
  have hcells := cells_writeCells_nonzero (show t.size = t'.size from hsize)
  have hsize' : (writeCells t.reset (t'.nonzero.map fun (i, v) => ((i : Int), v))).size = t'.size :=
    congrArg Array.size hcells
  have hpointer' : t'.pointer % (t'.size : Int) = t'.pointer := Int.emod_eq_of_lt hpointer.1 hpointer.2
  simp only [restoredStore, snapshot, Tape.seek, Tape.address, Store.nonzero, hcells, hsize', Store.pointer, hpointer']

/-- An objection to a snapshot looks at the store only. -/
theorem objection?_congr {s t : Session} (h : t.store = s.store) (snapshot : Snapshot) :
    t.objection? snapshot = s.objection? snapshot := by
  have hcells (cells : List (Int × Nat)) : t.cellObjection? cells = s.cellObjection? cells := by
    induction cells with
    | nil => rfl
    | cons cell rest ih => simp only [cellObjection?, ih, h]
  simp only [objection?, h, hcells]

/-- There is no objection to the cells of a tape of the same size and width. -/
theorem cellObjection?_eq_none (r : Session) {cells : List (Int × Nat)}
    (h : ∀ c ∈ cells, 0 ≤ c.1 ∧ c.1 < r.store.size ∧ c.2 < Nat.pow 2 r.store.width) :
    r.cellObjection? cells = none := by
  induction cells with
  | nil => rfl
  | cons c rest ih =>
    obtain ⟨i, v⟩ := c
    obtain ⟨hi, hlt, hv⟩ := h (i, v) (List.mem_cons_self ..)
    rw [cellObjection?, if_neg (by omega), if_neg (by omega)]
    exact ih (fun c hc => h c (List.mem_cons_of_mem _ hc))

theorem mem_snapshot_cells {s : Session} {c : Int × Nat} (h : c ∈ s.snapshot.cells) :
    0 ≤ c.1 ∧ c.1 < s.store.size ∧ c.2 < Nat.pow 2 s.store.width := by
  obtain ⟨⟨i, v⟩, hmem, rfl⟩ := List.mem_map.mp h
  obtain ⟨hlt, hv, -⟩ := (s.store.tape.mem_nonzero _).mp hmem
  refine ⟨Int.natCast_nonneg i, Int.ofNat_lt.mpr hlt, ?_⟩
  rw [show v = _ from hv]
  exact BitVec.isLt _

/-- A snapshot of a session whose pointer points to a cell is taken over by every session on a tape of the
same size and width. -/
theorem restore_snapshot {r s : Session} (hwidth : r.store.width = s.store.width)
    (hsize : r.store.size = s.store.size)
    (hpointer : 0 ≤ s.store.pointer ∧ s.store.pointer < s.store.size) :
    r.restore s.snapshot = .ok { r with store := s.store, turns := s.turns } := by
  have hnone : r.objection? s.snapshot = none := by
    rw [objection?, if_neg (by simp [snapshot, hwidth, hsize]), if_neg (by simp [snapshot, hsize]; omega)]
    refine r.cellObjection?_eq_none (fun c hc => ?_)
    rw [hwidth, hsize]
    exact mem_snapshot_cells hc
  rw [restore, hnone]
  simp only [restoredStore_snapshot hwidth hsize hpointer]
  rfl

end Session

/-! ### Turns -/

namespace Machine
variable {w : Nat} {task : Task} {m m' : Machine w}

/-- A step that goes on leaves the tape alone or performs one operation on it. -/
theorem tape_of_running (h : m.step task = .running m') :
    m'.tape = m.tape ∨ ∃ op, m'.tape = m.tape.perform op := by
  cases advances_of_running h with
  | @shift byte =>
    simp only [shifted]
    cases Instruction.ofByte? byte with
    | none => exact .inl rfl
    | some i =>
      cases i with
      | right => exact .inr ⟨.moveRight, rfl⟩
      | left => exact .inr ⟨.moveLeft, rfl⟩
      | increment => exact .inr ⟨.increment, rfl⟩
      | decrement => exact .inr ⟨.decrement, rfl⟩
      | _ => exact .inl rfl
  | read => exact .inr ⟨.setByte _, rfl⟩
  | ended =>
    cases task.eof with
    | zero => exact .inr ⟨.setByte 0, rfl⟩
    | max => exact .inr ⟨.setMax, rfl⟩
    | unchanged => exact .inl rfl
    | unknown => exact .inl rfl
  | _ => exact .inl rfl

/-- A step that stops leaves the tape alone. -/
theorem tape_of_stopped {reason : StopReason} {fault : Option Fault}
    (h : m.step task = .stopped m' reason fault) : m'.tape = m.tape := by
  rcases stop_cases h with ⟨-, hf⟩ | ⟨n, given, hgive, habort⟩
  · rw [machine_of_finish hf]
    rfl
  · obtain ⟨rfl, -⟩ := machine_of_abort habort
    cases hgive <;> rfl

/-- What every operation keeps is kept along a run. -/
theorem tape_of_run {P : Tape w → Prop} (hkeep : ∀ t op, P t → P (t.perform op)) {visited : List (Machine w)}
    (hrun : Run task m visited m') (hstart : P m.tape) : P m'.tape := by
  refine hrun.invariant (P := fun _ n => P n.tape) hstart (fun _ n n' hn hstep => ?_)
  rcases tape_of_running hstep with heq | ⟨op, heq⟩
  · rw [heq]
    exact hn
  · rw [heq]
    exact hkeep _ op hn

/-- What every operation keeps is kept by a task. -/
theorem tape_of_halts {P : Tape w → Prop} (hkeep : ∀ t op, P t → P (t.perform op)) {h : Halt w}
    (hhalts : Halts task m h) (hstart : P m.tape) : P h.machine.tape := by
  obtain ⟨visited, hafter⟩ := halts_iff.mp hhalts
  cases hafter with
  | cancelled _ hstop =>
    rw [(machine_of_abort hstop).1]
    exact hstart
  | stopped _ hrun hstop =>
    rw [tape_of_stopped hstop]
    exact tape_of_run hkeep hrun hstart

end Machine

namespace Session

/-- What a turn can amount to: the source is rejected and nothing but the count of turns changes, or it is run
on the session's tape, input and sink. -/
theorem turn_cases {s : Session} {fuel : Nat} {signal : Signal} {source : Program} {t : Turn}
    (h : s.turn fuel signal source = some t) :
    (∃ cause, Brackets.resolve source = .error cause ∧ t.session = s.count ∧
      t.result = { stop := .failed } ∧ t.fault = some (.caused .unbalancedBrackets cause) ∧
      t.signal = signal) ∨
    ∃ jumps halt, Brackets.resolve source = .ok jumps ∧
      (s.machine signal).launch (s.task source jumps) fuel = some halt ∧
      t.session = s.count.settle halt.machine ∧ t.result = halt.result ∧ t.fault = halt.fault ∧
      t.signal = halt.machine.signal := by
  unfold turn at h
  cases hresolve : Brackets.resolve source with
  | error cause =>
    simp only [hresolve] at h
    obtain rfl := Option.some.inj h
    exact .inl ⟨cause, rfl, rfl, rfl, rfl, rfl⟩
  | ok jumps =>
    simp only [hresolve] at h
    cases hlaunch : (s.count.machine signal).launch (s.count.task source jumps) fuel with
    | none =>
      simp only [hlaunch] at h
      cases h
    | some halt =>
      simp only [hlaunch] at h
      obtain rfl := Option.some.inj h
      exact .inr ⟨jumps, halt, rfl, hlaunch, rfl, rfl, rfl, rfl⟩

/-- The session turns `source` as `t`, in some number of steps. -/
def Turns (s : Session) (signal : Signal) (source : Program) (t : Turn) : Prop :=
  ∃ fuel, s.turn fuel signal source = some t

/-- More fuel than a turn needs changes nothing. -/
theorem turn_mono {s : Session} {fuel more : Nat} {signal : Signal} {source : Program} {t : Turn}
    (h : s.turn fuel signal source = some t) (hle : fuel ≤ more) : s.turn more signal source = some t := by
  unfold turn at h ⊢
  cases hresolve : Brackets.resolve source with
  | error cause =>
    simp only [hresolve] at h ⊢
    exact h
  | ok jumps =>
    simp only [hresolve] at h ⊢
    cases hlaunch : (s.count.machine signal).launch (s.count.task source jumps) fuel with
    | none =>
      simp only [hlaunch] at h
      cases h
    | some halt =>
      simp only [hlaunch] at h
      simp only [Machine.launch_mono hlaunch hle]
      exact h

/-- Each turn is counted, also one that fails. -/
theorem turns_of_turn {s : Session} {fuel : Nat} {signal : Signal} {source : Program} {t : Turn}
    (h : s.turn fuel signal source = some t) : t.session.turns = Word.wrap (s.turns + 1) := by
  rcases turn_cases h with ⟨cause, -, hsession, -⟩ | ⟨jumps, halt, -, -, hsession, -⟩
  · rw [hsession]
    rfl
  · rw [hsession]
    rfl

/-- Options without an objection make a session on a blank tape. -/
theorem create_of_valid {o : Options} (h : o.objection? = none) (input : Input := .absent)
    (sink : Option Sink := none) (threshold : Option Log.Level := none) :
    ∃ s, create o input sink threshold = .ok s ∧ s.store.reset = s.store ∧ s.turns = 0 := by
  have hblank (w n : Nat) : Store.reset ⟨w, Tape.blank n⟩ = ⟨w, Tape.blank n⟩ := by
    have hsize : (Tape.blank n : Tape w).size = n := Array.size_replicate
    simp only [Store.reset, Tape.reset, hsize]
  simp only [create, Store.ofOptions, Options.fault?, h, Option.map_none]
  split
  · exact ⟨_, rfl, hblank _ _, rfl⟩
  · exact ⟨_, rfl, hblank _ _, rfl⟩

/-! ### Histories -/

/-- The sessions that come about from `options` by any finite history. The streams may be exchanged between
turns, and the tape operated on by hand. -/
inductive Reachable (options : Options) : Session → Prop
  | created {input : Input} {sink : Option Sink} {threshold : Option Log.Level} {s : Session} :
      create options input sink threshold = .ok s → Reachable options s
  | turned {s : Session} {fuel : Nat} {signal : Signal} {source : Program} {t : Turn} :
      Reachable options s → s.turn fuel signal source = some t → Reachable options t.session
  | reset {s : Session} : Reachable options s → Reachable options s.reset
  | restored {s s' : Session} {snap : Snapshot} : Reachable options s → s.restore snap = .ok s' →
      Reachable options s'
  | connected {s : Session} (input : Input) (sink : Option Sink) : Reachable options s →
      Reachable options { s with input, sink }
  | operated {s : Session} {op : Tape.Operation} {store : Store} : Reachable options s →
      s.store.attempt op = some store → Reachable options { s with store }

/-- The session has the tape that the options `o` ask for, and its pointer points to a cell. -/
structure WellFormed (o : Options) (s : Session) : Prop where
  options : s.options = o
  valid : o.objection? = none
  width : (s.store.width : Int) = o.cellWidth
  size : (s.store.size : Int) = o.tapeSize
  tape : s.store.tape.Within s.store.size

namespace WellFormed
variable {o : Options} {s s' : Session}

theorem size_pos (h : WellFormed o s) : 0 < s.store.size := by
  have := h.tape.pointer
  omega

/-- A session stays well-formed when its tape is replaced by one as wide and as long. -/
theorem withTape (h : WellFormed o s) (hoptions : s'.options = s.options)
    (hwidth : s'.store.width = s.store.width) (htape : s'.store.tape.Within s.store.size) :
    WellFormed o s' where
  options := hoptions.trans h.options
  valid := h.valid
  width := by rw [hwidth, h.width]
  size := by rw [← h.size]; exact congrArg Int.ofNat htape.size
  tape := by rw [show s'.store.size = s.store.size from htape.size]; exact htape

theorem created {input : Input} {sink : Option Sink} {threshold : Option Log.Level}
    (h : create o input sink threshold = .ok s) : WellFormed o s := by
  cases hvalid : o.objection? with
  | some cause =>
    simp only [create, Store.ofOptions, Options.fault?, hvalid] at h
    cases h
  | none =>
    obtain ⟨hpos, -, hwidth, -⟩ := Options.bounds_of_objection? hvalid
    simp only [create, Store.ofOptions, Options.fault?, hvalid, Option.map_none] at h
    have hblank {w : Nat} (hw : (w : Int) = o.cellWidth) : WellFormed o
        { options := o, store := ⟨w, Tape.blank o.tapeSize.toNat⟩, input, sink, threshold } := by
      have hsize : (Tape.blank o.tapeSize.toNat : Tape w).size = o.tapeSize.toNat := Array.size_replicate
      have htape : (Tape.blank o.tapeSize.toNat : Tape w).Within o.tapeSize.toNat := .blank (by omega)
      refine ⟨rfl, hvalid, hw, ?_, ?_⟩
      · show ((Tape.blank o.tapeSize.toNat : Tape w).size : Int) = o.tapeSize
        rw [hsize]
        omega
      · show (Tape.blank o.tapeSize.toNat : Tape w).Within (Tape.blank o.tapeSize.toNat : Tape w).size
        rw [hsize]
        exact htape
    by_cases hwide : o.cellWidth = 16
    · rw [if_pos hwide] at h
      obtain rfl := Except.ok.inj h
      exact hblank hwide.symm
    · rw [if_neg hwide] at h
      obtain rfl := Except.ok.inj h
      exact hblank (by omega)

theorem turned (h : WellFormed o s) {fuel : Nat} {signal : Signal} {source : Program} {t : Turn}
    (hturn : s.turn fuel signal source = some t) : WellFormed o t.session := by
  rcases turn_cases hturn with ⟨cause, -, hsession, -⟩ | ⟨jumps, halt, -, hlaunch, hsession, -⟩
  · rw [hsession]
    exact h.withTape rfl rfl h.tape
  · rw [hsession]
    exact h.withTape rfl rfl
      (Machine.tape_of_halts (fun t op ht => ht.perform op) ⟨fuel, hlaunch⟩ h.tape)

theorem reset (h : WellFormed o s) : WellFormed o s.reset :=
  h.withTape rfl rfl (h.tape.perform .reset)

theorem restored (h : WellFormed o s) {snap : Snapshot} (hrestore : s.restore snap = .ok s') :
    WellFormed o s' := by
  unfold restore at hrestore
  cases hobjection : s.objection? snap with
  | some cause =>
    rw [hobjection] at hrestore
    cases hrestore
  | none =>
    rw [hobjection] at hrestore
    obtain rfl := Except.ok.inj hrestore
    have hsize : (writeCells s.store.tape.reset snap.cells).size = s.store.size :=
      (size_writeCells ..).trans Array.size_replicate
    exact h.withTape rfl rfl (Tape.Within.seek hsize h.size_pos snap.pointer)

theorem operated (h : WellFormed o s) {op : Tape.Operation} {store : Store}
    (hop : s.store.attempt op = some store) : WellFormed o { s with store } := by
  unfold Store.attempt Tape.attempt at hop
  split at hop
  · obtain rfl := Option.some.inj hop
    exact h.withTape rfl rfl (h.tape.perform op)
  · cases hop

end WellFormed

/-- **Well-formedness is invariant.** -/
theorem Reachable.wellFormed {o : Options} {s : Session} (h : Reachable o s) : WellFormed o s := by
  induction h with
  | created hcreate => exact .created hcreate
  | turned _ hturn ih => exact ih.turned hturn
  | reset _ ih => exact ih.reset
  | restored _ hrestore ih => exact ih.restored hrestore
  | connected input sink _ ih => exact ih.withTape rfl rfl ih.tape
  | operated _ hop ih => exact ih.operated hop

end Session
end TapeMachine
