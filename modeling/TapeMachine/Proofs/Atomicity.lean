import TapeMachine.Proofs.Reporting
import TapeMachine.Proofs.Sessions

/-! All or nothing.

A turn resolves the brackets of its source before it does anything else. If they are not balanced, the turn is over:
no byte is read or written, the tape is as it was, and only the turn is counted (`Turn.Rejected`). If they are, no
fault of the turn speaks of brackets.

Restoring works on the session in place: it looks at what the snapshot says, and then clears the tape and writes cell
after cell on it. `Editing` spells that out, with every moment at which it could stop halfway. It stops while looking
only, so it leaves the session as it is (`run_restore_of_not_admits`) or takes the whole snapshot over
(`run_restore_of_admits`). The order of the cells does not matter, neither while they are looked at nor while they are
written. -/
namespace TapeMachine

theorem Word.wrap_of_fits {i : Int} (h : fits i = true) : wrap i = i := by
  have hbounds : -9223372036854775808 ≤ i ∧ i ≤ 9223372036854775807 := of_decide_eq_true h
  rw [wrap, show (Nat.pow 2 64 : Nat) = 18446744073709551616 from rfl]
  exact Int.bmod_eq_of_le (by omega) (by omega)

/-! ### Turns -/

namespace Brackets

theorem balanced_iff_resolve (program : Program) :
    Balanced (word program.toList) ↔ ∃ table, resolve program = .ok table := by
  rw [balanced_word_iff]
  constructor
  · rintro ⟨t, ht⟩
    exact ⟨_, resolve_text ht⟩
  · rintro ⟨table, htable⟩
    obtain ⟨t, ht, -⟩ := exists_tree htable
    exact ⟨t, ht⟩

end Brackets

open Brackets

/-- The turn `t` of `s` did nothing but to be counted, and says that the brackets are not balanced. The streams are the
same to the last call made on them. -/
structure Turn.Rejected (s : Session) (signal : Signal) (t : Turn) : Prop where
  result : t.result = { steps := 0, read := 0, written := 0, stop := .failed }
  fault : ∃ fault, t.fault = some fault ∧ fault.kinds = [.unbalancedBrackets]
  store : t.session.store = s.store
  options : t.session.options = s.options
  input : t.session.input = s.input
  sink : t.session.sink = s.sink
  signal : t.signal = signal
  turns : t.session.turns = Word.wrap (s.turns + 1)
  counted : Word.fits (s.turns + 1) = true → t.session.turns = s.turns + 1

namespace Session

/-- A turn of a source that does not resolve ends at once, whether it is cancelled or not. -/
theorem turn_of_unresolved (s : Session) (signal : Signal) {source : Program} {cause : Cause}
    (hresolve : resolve source = .error cause) :
    ∃ t : Turn, (∀ fuel, s.turn fuel signal source = some t) ∧ t.Rejected s signal := by
  refine ⟨_, fun fuel => by rw [turn, hresolve], ?_⟩
  exact ⟨rfl, ⟨_, rfl, rfl⟩, rfl, rfl, rfl, rfl, rfl, rfl, fun hfits => Word.wrap_of_fits hfits⟩

/-- No turn of a source that resolves ends for the sake of its brackets. -/
theorem not_unbalanced_of_resolved {s : Session} {signal : Signal} {source : Program} {jumps : JumpTable}
    (hresolve : resolve source = .ok jumps) {t : Turn} (hturn : s.Turns signal source t) {fault : Fault}
    (hfault : t.fault = some fault) : fault.isA .unbalancedBrackets = false := by
  obtain ⟨fuel, hturn⟩ := hturn
  rcases turn_cases hturn with ⟨cause, hcause, -⟩ | ⟨jumps', halt, hjumps, hlaunch, -, -, hhalt, -⟩
  · cases hresolve.symm.trans hcause
  · have hhalts : Machine.Halts (s.task source jumps') (s.machine signal) halt := ⟨fuel, hlaunch⟩
    obtain ⟨visited, last, hat⟩ := hhalts.exists_haltsAt
    have hnever := Machine.HaltsAt.balanced hat hjumps
    rwa [Machine.Halt.isA, ← hhalt, hfault] at hnever

/-- **A turn is all or nothing with respect to brackets.** A source whose brackets are not balanced is rejected whole,
whatever the session and whether the turn is cancelled or not. A source whose brackets are balanced never gives a fault
about them, whatever happens while it runs. -/
theorem turn_all_or_nothing (s : Session) (signal : Signal) (source : Program) :
    (¬Balanced (word source.toList) →
      ∃ t : Turn, (∀ fuel, s.turn fuel signal source = some t) ∧ t.Rejected s signal) ∧
    (Balanced (word source.toList) → ∀ t : Turn, s.Turns signal source t → ∀ fault, t.fault = some fault →
      fault.isA .unbalancedBrackets = false) := by
  constructor
  · intro hunbalanced
    cases hresolve : resolve source with
    | error cause => exact s.turn_of_unresolved signal hresolve
    | ok table => exact absurd ((balanced_iff_resolve source).mpr ⟨table, hresolve⟩) hunbalanced
  · intro hbalanced t hturn fault hfault
    obtain ⟨table, hresolve⟩ := (balanced_iff_resolve source).mp hbalanced
    exact not_unbalanced_of_resolved hresolve hturn hfault

/-- A cancelled turn of `,.]` is rejected with its input unread, and no turn of `[,]` speaks of brackets. -/
theorem turn_all_or_nothing_of_stray :
    let s : Session :=
      { options := {}, store := ⟨8, ⟨#[7, 0], 1⟩⟩, input := .plain { data := [0x41] }, sink := some {}, turns := 6 }
    (∃ t : Turn, (∀ fuel, s.turn fuel .cancelled #[0x2c, 0x2e, 0x5d] = some t) ∧
      t.Rejected s .cancelled ∧ t.session.turns = 7) ∧
    ∀ t : Turn, s.Turns .clear #[0x5b, 0x2c, 0x5d] t → ∀ fault, t.fault = some fault →
      fault.isA .unbalancedBrackets = false := by
  intro s
  have hstray : ¬Balanced (word [0x2c, 0x2e, 0x5d]) := fun hbalanced => by
    obtain ⟨table, htable⟩ := (balanced_iff_resolve #[0x2c, 0x2e, 0x5d]).mp hbalanced
    cases htable
  have hloop : Balanced (word [0x5b, 0x2c, 0x5d]) := (balanced_iff_resolve #[0x5b, 0x2c, 0x5d]).mpr ⟨_, rfl⟩
  obtain ⟨t, hturn, hrejected⟩ := (s.turn_all_or_nothing .cancelled #[0x2c, 0x2e, 0x5d]).1 hstray
  exact ⟨⟨t, hturn, hrejected, hrejected.turns⟩, (s.turn_all_or_nothing .clear #[0x5b, 0x2c, 0x5d]).2 hloop⟩

/-! ### What restoring looks at -/

/-- The snapshot describes a tape of the session's size and width. -/
structure Admits (s : Session) (snap : Snapshot) : Prop where
  tapeSize : snap.tapeSize = s.store.size
  cellWidth : snap.cellWidth = s.store.width
  pointer : 0 ≤ snap.pointer ∧ snap.pointer < s.store.size
  cells : ∀ c ∈ snap.cells, 0 ≤ c.1 ∧ c.1 < s.store.size ∧ c.2 < Nat.pow 2 s.store.width

theorem cells_of_cellObjection? {s : Session} {cells : List (Int × Nat)} (h : s.cellObjection? cells = none) :
    ∀ c ∈ cells, 0 ≤ c.1 ∧ c.1 < s.store.size ∧ c.2 < Nat.pow 2 s.store.width := by
  induction cells with
  | nil => exact fun c hc => (by cases hc)
  | cons cell rest ih =>
    obtain ⟨i, v⟩ := cell
    rw [cellObjection?] at h
    split at h
    · cases h
    split at h
    · cases h
    · intro c hc
      rcases List.mem_cons.mp hc with rfl | hc
      · exact ⟨by omega, by omega, by omega⟩
      · exact ih h c hc

/-- There is an objection to every snapshot but those of a tape like the session's. -/
theorem objection?_eq_none_iff (s : Session) (snap : Snapshot) : s.objection? snap = none ↔ s.Admits snap := by
  rw [objection?]
  constructor
  · intro h
    split at h
    · cases h
    split at h
    · cases h
    · exact ⟨by omega, by omega, by omega, cells_of_cellObjection? h⟩
  · intro h
    have hpointer := h.pointer
    rw [if_neg (by simp [h.tapeSize, h.cellWidth]), if_neg (by omega)]
    exact s.cellObjection?_eq_none h.cells

/-- Whether a snapshot is admitted does not depend on the order of its cells. -/
theorem Admits.of_perm {s : Session} {snap : Snapshot} {cells : List (Int × Nat)} (hperm : cells.Perm snap.cells) :
    s.Admits { snap with cells } ↔ s.Admits snap :=
  ⟨fun h => ⟨h.tapeSize, h.cellWidth, h.pointer, fun c hc => h.cells c (hperm.mem_iff.mpr hc)⟩,
    fun h => ⟨h.tapeSize, h.cellWidth, h.pointer, fun c hc => h.cells c (hperm.mem_iff.mp hc)⟩⟩

/-! ### What restoring writes -/

section
variable {w : Nat} {t : Tape w} {cells : List (Int × Nat)}
  (hrange : ∀ c ∈ cells, 0 ≤ c.1 ∧ c.1 < t.size) (hkeys : cells.Pairwise (·.1 ≠ ·.1))
include hrange hkeys

/-- The tape that comes of writing cells does not depend on their order, but for the pointer. -/
theorem cells_writeCells_perm {cells' : List (Int × Nat)} (hperm : cells'.Perm cells) :
    (writeCells t cells').cells = (writeCells t cells).cells := by
  have hkeys' : cells'.Pairwise (·.1 ≠ ·.1) := (hperm.pairwise_iff fun h => h.symm).mpr hkeys
  obtain ⟨hsize, hnamed, hother⟩ := writeCells_spec t hrange hkeys
  obtain ⟨hsize', hnamed', hother'⟩ := writeCells_spec t (fun c hc => hrange c (hperm.mem_iff.mp hc)) hkeys'
  refine Array.ext (hsize'.trans hsize.symm) (fun i hi' hi => ?_)
  have hcell : (writeCells t cells').cells.getD i 0 = (writeCells t cells).cells.getD i 0 := by
    by_cases hi : ∃ c ∈ cells, c.1 = (i : Int)
    · obtain ⟨c, hc, hci⟩ := hi
      have heq := (hnamed' c (hperm.mem_iff.mpr hc)).trans (hnamed c hc).symm
      rwa [hci] at heq
    · have hnone : ∀ c ∈ cells, c.1 ≠ (i : Int) := fun c hc hci => hi ⟨c, hc, hci⟩
      exact (hother' i fun c hc => hnone c (hperm.mem_iff.mp hc)).trans (hother i hnone).symm
  simpa [Array.getD, hi, hi'] using hcell

/-- On a blank tape the cells written are those that are then not zero, as far as they are not zeros themselves. -/
theorem mem_nonzero_writeCells (hblank : ∀ i, t.cells.getD i 0 = 0) (hvalues : ∀ c ∈ cells, c.2 < Nat.pow 2 w)
    {u : Tape w} (hu : u.cells = (writeCells t cells).cells) (c : Int × Nat) :
    c ∈ u.nonzero.map (fun n => ((n.1 : Int), n.2)) ↔ c ∈ cells ∧ c.2 ≠ 0 := by
  obtain ⟨hsize, hnamed, hother⟩ := writeCells_spec t hrange hkeys
  rw [Tape.size] at hsize
  rw [← hu] at hsize hnamed hother
  have hvalue {c : Int × Nat} (hc : c ∈ cells) : (u.cells.getD c.1.toNat 0).toNat = c.2 := by
    rw [hnamed c hc, BitVec.toNat_ofNat]
    exact Nat.mod_eq_of_lt (hvalues c hc)
  constructor
  · intro h
    obtain ⟨⟨i, v⟩, hmem, rfl⟩ := List.mem_map.mp h
    obtain ⟨-, hv, hne⟩ := (Tape.mem_nonzero _ _).mp hmem
    refine ⟨?_, hne⟩
    by_cases hi : ∃ c ∈ cells, c.1 = (i : Int)
    · obtain ⟨⟨k, u⟩, hc, rfl⟩ := hi
      rw [show v = u from hv.trans (hvalue hc)]
      exact hc
    · -- A cell that was not written is still zero.
      rw [hother i fun c hc hci => hi ⟨c, hc, hci⟩, hblank i] at hv
      exact absurd hv hne
  · rintro ⟨hc, hne⟩
    obtain ⟨hnonneg, hlt⟩ := hrange c hc
    refine List.mem_map.mpr ⟨(c.1.toNat, c.2), (Tape.mem_nonzero _ _).mpr ⟨?_, (hvalue hc).symm, hne⟩, ?_⟩
    · rw [Tape.size, hsize]
      show c.1.toNat < t.size
      omega
    · exact Prod.ext (Int.toNat_of_nonneg hnonneg) rfl

end

theorem size_restored {w : Nat} (t : Tape w) (cells : List (Int × Nat)) : (writeCells t.reset cells).size = t.size :=
  (size_writeCells ..).trans Array.size_replicate

theorem getD_reset {w : Nat} (t : Tape w) (i : Nat) : t.reset.cells.getD i 0 = 0 := by
  simp [Tape.reset, Tape.blank, Array.getD]

section
variable {s : Session} {snap : Snapshot} (h : s.Admits snap) (hkeys : snap.cells.Pairwise (·.1 ≠ ·.1))
include h

theorem Admits.range_reset : ∀ c ∈ snap.cells, 0 ≤ c.1 ∧ c.1 < (s.store.tape.reset.size : Int) := by
  intro c hc
  rw [show s.store.tape.reset.size = s.store.size from Array.size_replicate]
  exact ⟨(h.cells c hc).1, (h.cells c hc).2.1⟩

include hkeys

/-- The order in which the cells are written makes no difference. -/
theorem Admits.restoredStore_perm {cells : List (Int × Nat)} (hperm : cells.Perm snap.cells) :
    s.restoredStore { snap with cells } = s.restoredStore snap := by
  have hcells := cells_writeCells_perm h.range_reset hkeys hperm
  simp only [restoredStore, Tape.seek, Tape.address, Tape.size, hcells]

end

/-- `now` is what a session that has taken over `snap`, and whose policy for the end of the input is named `eof`, tells
of itself. -/
structure TakenOver (snap : Snapshot) (eof : String) (now : Snapshot) : Prop where
  tapeSize : now.tapeSize = snap.tapeSize
  cellWidth : now.cellWidth = snap.cellWidth
  eof : now.eof = eof
  pointer : now.pointer = snap.pointer
  turns : now.turns = snap.turns
  cells : ∀ c, c ∈ now.cells ↔ c ∈ snap.cells ∧ c.2 ≠ 0
  ascending : now.cells.Pairwise (·.1 < ·.1)

/-- The session that has taken a snapshot over tells what the snapshot says, whatever its tape held before. -/
theorem Admits.takenOver {s : Session} {snap : Snapshot} (h : s.Admits snap)
    (hkeys : snap.cells.Pairwise (·.1 ≠ ·.1)) :
    TakenOver snap s.options.eof.name { s with store := s.restoredStore snap, turns := snap.turns }.snapshot where
  tapeSize := (congrArg Int.ofNat (size_restored s.store.tape snap.cells)).trans h.tapeSize.symm
  cellWidth := h.cellWidth.symm
  eof := rfl
  pointer := by
    show snap.pointer % ((writeCells s.store.tape.reset snap.cells).size : Int) = snap.pointer
    rw [size_restored]
    exact Int.emod_eq_of_lt h.pointer.1 h.pointer.2
  turns := rfl
  cells := mem_nonzero_writeCells h.range_reset hkeys (getD_reset _) (fun c hc => (h.cells c hc).2.2) rfl
  ascending := by
    refine List.pairwise_map.mpr ((Tape.ascending_nonzero _).imp fun hlt => ?_)
    exact Int.ofNat_lt.mpr hlt

/-! ### Restoring in place -/

/-- Work on a session in place. A fault ends it, and leaves the session as it is at that moment. -/
abbrev Editing := ExceptT Fault (StateM Session)

namespace Editing

theorem run_seq (f g : Editing Unit) (s : Session) :
    (do f; g : Editing Unit).run s = ExceptT.bindCont (fun _ => g) (f.run s).1 (f.run s).2 := rfl

theorem run_seq_of_ok {f : Editing Unit} {s s' : Session} (h : f.run s = (.ok (), s')) (g : Editing Unit) :
    (do f; g : Editing Unit).run s = g.run s' := by
  rw [run_seq, h]
  rfl

theorem run_seq_of_error {f : Editing Unit} {s s' : Session} {fault : Fault} (h : f.run s = (.error fault, s'))
    (g : Editing Unit) : (do f; g : Editing Unit).run s = (.error fault, s') := by
  rw [run_seq, h]
  rfl

/-- Ends the work if `p` holds. -/
def objectIf (p : Prop) [Decidable p] (cause : Cause) : Editing Unit :=
  if p then throw (.caused .invalidOptions cause) else pure ()

theorem run_objectIf_of {p : Prop} [Decidable p] (hp : p) (cause : Cause) (s : Session) :
    (objectIf p cause).run s = (.error (.caused .invalidOptions cause), s) := by
  rw [objectIf, if_pos hp]
  rfl

theorem run_objectIf_of_not {p : Prop} [Decidable p] (hp : ¬p) (cause : Cause) (s : Session) :
    (objectIf p cause).run s = (.ok (), s) := by
  rw [objectIf, if_neg hp]
  rfl

def lookAtCell (c : Int × Nat) : Editing Unit := do
  let s ← get
  objectIf (c.1 < 0 ∨ (s.store.size : Int) ≤ c.1) (.cellOutOfRange c.1)
  objectIf (Nat.pow 2 s.store.width ≤ c.2) (.valueTooWide c.1 c.2 s.store.width)

/-- Looks at the snapshot, and at its cells in the order of `cells`. -/
def lookAt (snap : Snapshot) (cells : List (Int × Nat)) : Editing Unit := do
  let s ← get
  objectIf (snap.tapeSize ≠ s.store.size ∨ snap.cellWidth ≠ s.store.width)
    (.otherTape snap.tapeSize snap.cellWidth s.store.size s.store.width)
  objectIf (snap.pointer < 0 ∨ (s.store.size : Int) ≤ snap.pointer) (.pointerOutOfRange snap.pointer)
  cells.forM lookAtCell

def operate (op : Tape.Operation) : Editing Unit :=
  modify fun s => { s with store := ⟨s.store.width, s.store.tape.perform op⟩ }

def writeCell (c : Int × Nat) : Editing Unit := do
  operate (.seek c.1)
  operate (.setValue c.2)

/-- Clears the tape, writes `cells` in this order, moves to the pointer of the snapshot and takes over its count of
turns. -/
def write (snap : Snapshot) (cells : List (Int × Nat)) : Editing Unit := do
  modify Session.reset
  cells.forM writeCell
  operate (.seek snap.pointer)
  modify fun s => { s with turns := snap.turns }

/-- Looks at the cells of a snapshot in one order, and writes them in another. -/
def restore (snap : Snapshot) (looked written : List (Int × Nat)) : Editing Unit := do
  lookAt snap looked
  write snap written

/-- How work ends that has met with an objection, or with none. -/
def verdict : Option Cause → Except Fault Unit
  | none => .ok ()
  | some cause => .error (.caused .invalidOptions cause)

theorem run_lookAtCells (s : Session) (cells : List (Int × Nat)) :
    (cells.forM lookAtCell).run s = (verdict (s.cellObjection? cells), s) := by
  induction cells with
  | nil => rfl
  | cons c rest ih =>
    obtain ⟨i, v⟩ := c
    show (do lookAtCell (i, v); rest.forM lookAtCell : Editing Unit).run s = _
    rw [cellObjection?]
    by_cases hrange : i < 0 ∨ (s.store.size : Int) ≤ i
    · rw [if_pos hrange]
      exact run_seq_of_error (run_seq_of_error (run_objectIf_of hrange _ s) _) _
    rw [if_neg hrange]
    have hin := run_objectIf_of_not hrange (.cellOutOfRange i) s
    by_cases hwide : Nat.pow 2 s.store.width ≤ v
    · rw [if_pos hwide]
      exact run_seq_of_error ((run_seq_of_ok hin _).trans (run_objectIf_of hwide _ s)) _
    · rw [if_neg hwide, ← ih]
      exact run_seq_of_ok ((run_seq_of_ok hin _).trans (run_objectIf_of_not hwide _ s)) _

/-- Looking changes nothing. -/
theorem run_lookAt (s : Session) (snap : Snapshot) (cells : List (Int × Nat)) :
    (lookAt snap cells).run s = (verdict (s.objection? { snap with cells }), s) := by
  rw [objection?]
  by_cases htape : snap.tapeSize ≠ s.store.size ∨ snap.cellWidth ≠ s.store.width
  · rw [if_pos htape]
    exact run_seq_of_error (run_objectIf_of htape _ s) _
  rw [if_neg htape]
  refine (run_seq_of_ok (run_objectIf_of_not htape _ s) _).trans ?_
  by_cases hpointer : snap.pointer < 0 ∨ (s.store.size : Int) ≤ snap.pointer
  · rw [if_pos hpointer]
    exact run_seq_of_error (run_objectIf_of hpointer _ s) _
  · rw [if_neg hpointer, ← run_lookAtCells]
    exact run_seq_of_ok (run_objectIf_of_not hpointer _ s) _

theorem run_writeCells (s : Session) (cells : List (Int × Nat)) :
    (cells.forM writeCell).run s =
      (.ok (), { s with store := ⟨s.store.width, writeCells s.store.tape cells⟩ }) := by
  induction cells generalizing s with
  | nil => rfl
  | cons c rest ih => exact ih _

/-- Writing never stops halfway. -/
theorem run_write (s : Session) (snap : Snapshot) (cells : List (Int × Nat)) :
    (write snap cells).run s =
      (.ok (), { s with store := s.restoredStore { snap with cells }, turns := snap.turns }) :=
  run_seq_of_ok (run_writeCells s.reset cells) _

variable {s : Session} {snap : Snapshot} {looked : List (Int × Nat)}

/-- A refused snapshot leaves the session as it is. -/
theorem run_restore_of_not_admits (hlooked : looked.Perm snap.cells) (h : ¬s.Admits snap)
    (written : List (Int × Nat)) :
    ∃ fault, (restore snap looked written).run s = (.error fault, s) ∧ fault.kinds = [.invalidOptions] := by
  cases hobjection : s.objection? { snap with cells := looked } with
  | none => exact absurd ((Admits.of_perm hlooked).mp ((s.objection?_eq_none_iff _).mp hobjection)) h
  | some cause =>
    refine ⟨.caused .invalidOptions cause, run_seq_of_error ?_ _, rfl⟩
    rw [run_lookAt, hobjection]
    rfl

/-- An admitted snapshot is taken over whole. -/
theorem run_restore_of_admits (h : s.Admits snap) (hkeys : snap.cells.Pairwise (·.1 ≠ ·.1))
    (hlooked : looked.Perm snap.cells) {written : List (Int × Nat)} (hwritten : written.Perm snap.cells) :
    (restore snap looked written).run s =
      (.ok (), { s with store := s.restoredStore snap, turns := snap.turns }) := by
  have hlook : (lookAt snap looked).run s = (.ok (), s) := by
    rw [run_lookAt, (s.objection?_eq_none_iff _).mpr ((Admits.of_perm hlooked).mpr h)]
    rfl
  rw [← h.restoredStore_perm hkeys hwritten, ← run_write]
  exact run_seq_of_ok hlook _

end Editing

/-- **Restoring is exact and atomic.** Let the cells of a snapshot name each address once, and let them be looked at in
one order and written in another. If the snapshot describes a tape of the session's size and width, it is taken over:
the session then tells the snapshot's pointer and turns, its cells but for the zeros, and its own policy. If not, the
options are said to be invalid, and the session is as it was. So a session takes over what another tells of itself, if
their tapes are as long and as wide. -/
theorem restore_exact {o : Options} {s : Session} (hs : Reachable o s) (snap : Snapshot)
    (hkeys : snap.cells.Pairwise (·.1 ≠ ·.1)) (looked written : List (Int × Nat)) (hlooked : looked.Perm snap.cells)
    (hwritten : written.Perm snap.cells) :
    (s.Admits snap → ∃ s', (Editing.restore snap looked written).run s = (.ok (), s') ∧ s.restore snap = .ok s' ∧
      TakenOver snap s.options.eof.name s'.snapshot) ∧
    (¬s.Admits snap → ∃ fault, (Editing.restore snap looked written).run s = (.error fault, s) ∧
      fault.kinds = [.invalidOptions] ∧ ∃ fault, s.restore snap = .error fault ∧ fault.kinds = [.invalidOptions]) ∧
    ∀ t : Session, t.store.size = s.store.size → t.store.width = s.store.width →
      ∃ t', t.restore s.snapshot = .ok t' ∧ t'.snapshot = { s.snapshot with eof := t.snapshot.eof } := by
  refine ⟨fun h => ?_, fun h => ?_, fun t hsize hwidth => ?_⟩
  · refine ⟨_, Editing.run_restore_of_admits h hkeys hlooked hwritten, ?_, h.takenOver hkeys⟩
    rw [restore, (s.objection?_eq_none_iff snap).mpr h]
  · obtain ⟨fault, hrun, hkinds⟩ := Editing.run_restore_of_not_admits hlooked h written
    refine ⟨fault, hrun, hkinds, ?_⟩
    cases hobjection : s.objection? snap with
    | none => exact absurd ((s.objection?_eq_none_iff snap).mp hobjection) h
    | some cause => exact ⟨.caused .invalidOptions cause, by rw [restore, hobjection], rfl⟩
  · exact ⟨_, restore_snapshot hwidth hsize hs.wellFormed.tape.pointer, rfl⟩

/-- A tape whose first cell holds a one takes over cells in any order, and refuses a value of two bytes. -/
theorem restore_exact_out_of_order :
    let s : Session := { options := { tapeSize := 3 }, store := ⟨8, ⟨#[1, 0, 0], 0⟩⟩ }
    let snap : Snapshot :=
      { tapeSize := 3, cellWidth := 8, pointer := 1, turns := 9, cells := [(2, 7), (0, 0), (1, 255)] }
    let wide : Snapshot := { snap with cells := [(2, 7), (1, 256)] }
    (∃ s', (Editing.restore snap [(1, 255), (2, 7), (0, 0)] [(0, 0), (1, 255), (2, 7)]).run s = (.ok (), s') ∧
      TakenOver snap "unchanged" s'.snapshot) ∧
    ∃ fault, (Editing.restore wide [(2, 7), (1, 256)] [(1, 256), (2, 7)]).run s = (.error fault, s) ∧
      fault.kinds = [.invalidOptions] := by
  intro s snap wide
  have hblank : Reachable { tapeSize := 3 } { s with store := ⟨8, Tape.blank 3⟩ } := .created rfl
  have hs : Reachable { tapeSize := 3 } s :=
    hblank.operated (show Store.attempt ⟨8, Tape.blank 3⟩ .increment = some s.store from rfl)
  constructor
  · obtain ⟨s', hrun, -, htaken⟩ := (restore_exact hs snap (by decide) [(1, 255), (2, 7), (0, 0)]
      [(0, 0), (1, 255), (2, 7)] (by decide) (by decide)).1 ⟨rfl, rfl, by decide, by decide⟩
    exact ⟨s', hrun, htaken⟩
  · obtain ⟨fault, hrun, hkinds, -⟩ := (restore_exact hs wide (by decide) [(2, 7), (1, 256)] [(1, 256), (2, 7)]
      (by decide) (by decide)).2.1 fun h => absurd (h.cells (1, 256) (by decide)).2.2 (by decide)
    exact ⟨fault, hrun, hkinds⟩

end Session
end TapeMachine
