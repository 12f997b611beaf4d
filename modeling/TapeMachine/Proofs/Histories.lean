import TapeMachine.Proofs.Sessions

/-! Histories of a session.

Between its creation and any later moment a session goes through actions: turns on any streams, resets, restores that
are accepted or refused, and operations on its tape. An action breaks down if it uses the current cell where the pointer
points to none, or counts around a ring without cells. On a well-formed session no action does, and each leaves the
session well-formed; so the same holds after every history, and what a snapshot says at one moment fits the tape at
every later one. -/
namespace TapeMachine

/-! ### Where a tape can be used -/

namespace Tape
variable {w n : Nat} {t : Tape w}

theorem Within.isReady (h : t.Within n) : t.isReady = true := by
  rw [Tape.isReady, decide_eq_true_iff, h.size]
  exact h.pointer

theorem within_of_isReady (h : t.isReady = true) : t.Within t.size := ⟨rfl, of_decide_eq_true h⟩

theorem Within.accepts (h : t.Within n) (op : Operation) : t.accepts op = true := by
  have hready := h.isReady
  cases op with
  | seek i =>
    have hpointer := h.pointer
    have hsize : t.size ≠ 0 := by
      rw [h.size]
      omega
    simp [Tape.accepts, hsize]
  | moveRight => rfl
  | moveLeft => rfl
  | reset => rfl
  | _ => exact hready

theorem Within.attempt (h : t.Within n) (op : Operation) : t.attempt op = some (t.perform op) := by
  rw [Tape.attempt, h.accepts op, if_pos rfl]

/-- The tape after operations one after the other, if each is defined where it is reached. -/
def attemptAll (t : Tape w) : List Operation → Option (Tape w)
  | [] => some t
  | op :: rest => (t.attempt op).bind (·.attemptAll rest)

theorem Within.attemptAll (h : t.Within n) (ops : List Operation) :
    t.attemptAll ops = some (ops.foldl Tape.perform t) := by
  induction ops generalizing t with
  | nil => rfl
  | cons op rest ih =>
    rw [Tape.attemptAll, h.attempt op, Option.bind_some, ih (h.perform op)]
    rfl

end Tape

/-- Whether an instruction uses the current cell. -/
def Instruction.usesCell : Instruction → Bool
  | .right | .left => false
  | _ => true

/-- The next instruction uses the current cell, and there is none. -/
def Machine.IsStranded {w : Nat} (task : Task) (m : Machine w) : Prop :=
  ∃ byte i, m.due task = some byte ∧ Instruction.ofByte? byte = some i ∧ i.usesCell = true ∧ m.tape.isReady = false

/-- A run that starts on a cell is never stranded. -/
theorem Machine.Run.not_stranded {w n : Nat} {task : Task} {m last : Machine w} {visited : List (Machine w)}
    (hrun : Run task m visited last) (h : m.tape.Within n) : ¬last.IsStranded task := by
  have hlast : last.tape.Within n := tape_of_run (fun _ op ht => ht.perform op) hrun h
  rintro ⟨byte, i, -, -, -, hstranded⟩
  cases hstranded.symm.trans hlast.isReady

/-! ### Actions -/

/-- What is done to a tape to take over a snapshot. -/
def Snapshot.operations (snap : Snapshot) : List Tape.Operation :=
  .reset :: snap.cells.flatMap (fun c => [.seek c.1, .setValue c.2]) ++ [.seek snap.pointer]

theorem Snapshot.foldl_operations {w : Nat} (snap : Snapshot) (t : Tape w) :
    snap.operations.foldl Tape.perform t = (Session.writeCells t.reset snap.cells).seek snap.pointer := by
  have hcells (cells : List (Int × Nat)) (u : Tape w) :
      (cells.flatMap fun c => [.seek c.1, .setValue c.2]).foldl Tape.perform u = Session.writeCells u cells := by
    induction cells generalizing u with
    | nil => rfl
    | cons c rest ih => exact ih _
  rw [operations, List.cons_append, List.foldl_cons, List.foldl_append, hcells]
  rfl

/-- What can happen to a session. -/
inductive Action
  | turn (fuel : Nat) (signal : Signal) (input : Input) (sink : Option Sink) (source : Program)
  | reset
  | restore (snap : Snapshot)
  | operate (op : Tape.Operation)

namespace Session

/-- An action breaks down on the tape as it finds it: a turn at any of its machines, whether it would end or not, a
restore that is accepted at any of its operations. -/
def BreaksDown (s : Session) : Action → Prop
  | .turn _ signal input sink source => ∃ jumps visited m, Brackets.resolve source = .ok jumps ∧
      Machine.Run (s.task source jumps) ({ s with input, sink }.machine signal) visited m ∧
      m.IsStranded (s.task source jumps)
  | .reset => s.store.attempt .reset = none
  | .restore snap => s.objection? snap = none ∧ s.store.tape.attemptAll snap.operations = none
  | .operate op => s.store.attempt op = none

/-- Where an action leads. A turn leads nowhere that does not end within its fuel. -/
inductive Leads (s : Session) : Action → Session → Prop
  | turned {fuel : Nat} {signal : Signal} {input : Input} {sink : Option Sink} {source : Program} {t : Turn} :
      { s with input, sink }.turn fuel signal source = some t →
      Leads s (.turn fuel signal input sink source) t.session
  | reset : Leads s .reset s.reset
  | restored {snap : Snapshot} {s' : Session} : s.restore snap = .ok s' → Leads s (.restore snap) s'
  | refused {snap : Snapshot} {fault : Fault} : s.restore snap = .error fault → Leads s (.restore snap) s
  | operated {op : Tape.Operation} {store : Store} : s.store.attempt op = some store →
      Leads s (.operate op) { s with store }

/-- Actions one after the other. -/
inductive History : Session → List Action → Session → Prop
  | nil (s : Session) : History s [] s
  | cons {s s' s'' : Session} {action : Action} {rest : List Action} : Leads s action s' → History s' rest s'' →
      History s (action :: rest) s''

namespace WellFormed
variable {o : Options} {s s' : Session}

theorem leads (h : WellFormed o s) {action : Action} (hleads : Leads s action s') : WellFormed o s' := by
  cases hleads with
  | @turned fuel signal input sink source t hturn =>
    have hconnected : WellFormed o { s with input, sink } := h.withTape rfl rfl h.tape
    exact hconnected.turned hturn
  | reset => exact h.reset
  | restored hrestore => exact h.restored hrestore
  | refused => exact h
  | operated hop => exact h.operated hop

theorem history (h : WellFormed o s) {actions : List Action} (hhistory : History s actions s') : WellFormed o s' := by
  induction hhistory with
  | nil => exact h
  | cons hleads _ ih => exact ih (h.leads hleads)

theorem attempt (h : WellFormed o s) (op : Tape.Operation) :
    s.store.attempt op = some ⟨s.store.width, s.store.tape.perform op⟩ := by
  rw [Store.attempt, h.tape.attempt op]
  rfl

theorem not_breaksDown (h : WellFormed o s) (action : Action) : ¬s.BreaksDown action := by
  cases action with
  | turn fuel signal input sink source =>
    rintro ⟨jumps, visited, m, -, hrun, hstranded⟩
    exact hrun.not_stranded h.tape hstranded
  | reset => exact fun hnone => by cases hnone.symm.trans (h.attempt .reset)
  | restore snap =>
    rintro ⟨-, hnone⟩
    cases hnone.symm.trans (h.tape.attemptAll snap.operations)
  | operate op => exact fun hnone => by cases hnone.symm.trans (h.attempt op)

/-- What restoring does to the tape is what its operations do. -/
theorem attemptAll_operations (h : WellFormed o s) {snap : Snapshot} (hrestore : s.restore snap = .ok s') :
    (s.store.tape.attemptAll snap.operations).map (⟨s.store.width, ·⟩) = some s'.store := by
  unfold restore at hrestore
  split at hrestore
  · cases hrestore
  · obtain rfl := Except.ok.inj hrestore
    rw [h.tape.attemptAll, Snapshot.foldl_operations]
    rfl

/-- An action leads somewhere, unless it is a turn that has not ended within its fuel. -/
theorem exists_leads (h : WellFormed o s) (action : Action) :
    (∃ s', Leads s action s') ∨ ∃ fuel signal input sink source, action = .turn fuel signal input sink source ∧
      { s with input, sink }.turn fuel signal source = none := by
  cases action with
  | turn fuel signal input sink source =>
    cases hturn : { s with input, sink }.turn fuel signal source with
    | none => exact .inr ⟨fuel, signal, input, sink, source, rfl, hturn⟩
    | some t => exact .inl ⟨t.session, .turned hturn⟩
  | reset => exact .inl ⟨s.reset, .reset⟩
  | restore snap =>
    cases hrestore : s.restore snap with
    | error fault => exact .inl ⟨s, .refused hrestore⟩
    | ok s' => exact .inl ⟨s', .restored hrestore⟩
  | operate op => exact .inl ⟨_, .operated (h.attempt op)⟩

/-- A snapshot of a well-formed session fits every other one under the same options. -/
theorem restore_snapshot (h : WellFormed o s) (h' : WellFormed o s') :
    s'.restore s.snapshot = .ok { s' with store := s.store, turns := s.turns } := by
  have hwidth : s'.store.width = s.store.width := Int.ofNat.inj (h'.width.trans h.width.symm)
  have hsize : s'.store.size = s.store.size := Int.ofNat.inj (h'.size.trans h.size.symm)
  exact Session.restore_snapshot hwidth hsize h.tape.pointer

end WellFormed

/-- What holds of a session at every moment. -/
structure InOrder (o : Options) (s : Session) : Prop where
  size : (s.store.size : Int) = o.tapeSize
  width : (s.store.width : Int) = o.cellWidth
  pointer : 0 ≤ s.store.pointer ∧ s.store.pointer < s.store.size
  values : ∀ i, s.store.valueAt i < Nat.pow 2 o.cellWidth.toNat
  /-- No action breaks down. -/
  works : ∀ action, ¬s.BreaksDown action
  /-- Every action leads somewhere, unless it is a turn that has not ended. -/
  leads : ∀ action, (∃ s', Leads s action s') ∨
    ∃ fuel signal input sink source, action = .turn fuel signal input sink source ∧
      { s with input, sink }.turn fuel signal source = none
  /-- A restore leaves the store that its operations lead to. -/
  restores : ∀ snap s', s.restore snap = .ok s' →
    (s.store.tape.attemptAll snap.operations).map (⟨s.store.width, ·⟩) = some s'.store

theorem WellFormed.inOrder {o : Options} {s : Session} (h : WellFormed o s) : s.InOrder o where
  size := h.size
  width := h.width
  pointer := h.tape.pointer
  values i := by
    rw [← h.width]
    exact BitVec.isLt _
  works := h.not_breaksDown
  leads := h.exists_leads
  restores _ _ := h.attemptAll_operations

/-- **A session is in order at every moment.** Options that nothing speaks against give a session, and whatever
happens to it, it stays as wide and as long as they ask for, its pointer points to a cell, no action breaks down, and
a snapshot taken at any moment is taken over at every later one. -/
theorem history_in_order (o : Options) (hvalid : o.objection? = none) (input : Input) (sink : Option Sink)
    (threshold : Option Log.Level) :
    ∃ s₀, create o input sink threshold = .ok s₀ ∧ ∀ before s, History s₀ before s → s.InOrder o ∧
      ∀ later s', History s later s' →
        s'.restore s.snapshot = .ok { s' with store := s.store, turns := s.turns } := by
  obtain ⟨s₀, hcreate, -⟩ := create_of_valid hvalid input sink threshold
  refine ⟨s₀, hcreate, fun before s hbefore => ?_⟩
  have hs : WellFormed o s := (WellFormed.created hcreate).history hbefore
  exact ⟨hs.inOrder, fun later s' hlater => hs.restore_snapshot (hs.history hlater)⟩

/-- A ring of two wide cells: a seek below zero, the greatest value, a turn that goes round and is stopped by a read
that fails, and then back to the start. -/
theorem history_in_order_ring :
    ∃ s₀ s : Session, History s₀ [.operate (.seek (-3)), .operate .setMax,
        .turn 5 .clear (.plain { data := [], ending := .told "gone" }) none #[0x3e, 0x2d, 0x2c]] s ∧
      s.store.nonzero = [(0, 65535), (1, 65535)] ∧ s.InOrder { tapeSize := 2, cellWidth := 16 } ∧
      s.restore s₀.snapshot = .ok { s with store := s₀.store, turns := s₀.turns } := by
  obtain ⟨s₀, hcreate, hhistory⟩ :=
    history_in_order { tapeSize := 2, cellWidth := 16 } (by decide) .absent none none
  obtain ⟨s, hactions, hcells⟩ : ∃ s : Session, History s₀ [.operate (.seek (-3)), .operate .setMax,
      .turn 5 .clear (.plain { data := [], ending := .told "gone" }) none #[0x3e, 0x2d, 0x2c]] s ∧
      s.store.nonzero = [(0, 65535), (1, 65535)] := by
    obtain rfl := Except.ok.inj hcreate
    refine ⟨_, .cons (.operated rfl) (.cons (.operated rfl) (.cons (.turned rfl) (.nil _))), ?_⟩
    rfl
  exact ⟨s₀, s, hactions, hcells, (hhistory _ s hactions).1, (hhistory [] s₀ (.nil s₀)).2 _ s hactions⟩

end Session
end TapeMachine
