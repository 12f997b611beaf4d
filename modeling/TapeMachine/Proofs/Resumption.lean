import TapeMachine.Proofs.Future
import TapeMachine.Proofs.Sessions

/-! A snapshot is the whole state of a session.

Two sessions may have come about by different histories, with turns that were rejected or broken off inside
loops, and their streams may have different pasts. If their options and snapshots are equal and their streams
have the same future (`Session.Alike`), then each turn gives the same on both and leaves them alike
(`Session.Alike.turn`), and so does a whole script of turns (`Session.Alike.agree`). Nothing else that a turn
leaves behind is seen by a later one; in particular the stack of loops is not. -/
namespace TapeMachine

namespace Session

/-- Two sessions that cannot be told apart from now on. -/
structure Alike (s t : Session) : Prop where
  options : t.options = s.options
  snapshot : t.snapshot = s.snapshot
  input : s.input.Alike t.input
  sink : Option.Rel Sink.Alike s.sink t.sink

/-- Two turns, on sessions that were `s` and `t`, that amount to the same and leave sessions that are alike.
Their sinks were offered the same and have accepted the same. -/
structure TurnsAlike (s t : Session) (a b : Turn) : Prop where
  result : b.result = a.result
  fault : b.fault = a.fault
  signal : b.signal = a.signal
  delivered : Outbox.SinksAlike s.sink t.sink a.session.sink b.session.sink
  session : a.session.Alike b.session

/-- Two sessions agree on a script of turns: within any number of steps the first turn ends on both or on
neither, and where it ends the turns are alike and the sessions agree on the rest. -/
def Agree : List (Signal × Program) → Session → Session → Prop
  | [], _, _ => True
  | (signal, source) :: rest, s, t => ∀ fuel, Option.Rel
      (fun a b => TurnsAlike s t a b ∧ Agree rest a.session b.session)
      (s.turn fuel signal source) (t.turn fuel signal source)

variable {s t : Session}

theorem snapshot_congr (hoptions : t.options = s.options) (hstore : t.store = s.store)
    (hturns : t.turns = s.turns) : t.snapshot = s.snapshot := by
  rw [snapshot, snapshot, hoptions, hstore, hturns]

theorem Alike.launch {s t : Session} {w : Nat} (tape : Tape w) (hinput : s.input.Alike t.input)
    (hsink : Option.Rel Sink.Alike s.sink t.sink) (signal : Signal) (task : Task) (fuel : Nat) :
    Option.Rel (Machine.StopsAlike (.futures w s.sink t.sink))
      ((Machine.fresh tape s.input s.sink signal).launch task fuel)
      ((Machine.fresh tape t.input t.sink signal).launch task fuel) := by
  refine Machine.Coupled.launch (fun h => by rw [h]) (.refl task) ?_ fuel
  exact ⟨rfl, hinput, ⟨rfl, rfl, .refl hsink⟩, rfl, fun hlead => absurd rfl hlead, rfl, rfl, rfl, rfl, rfl⟩

theorem Alike.turn (h : s.Alike t) (fuel : Nat) (signal : Signal) (source : Program) :
    Option.Rel (TurnsAlike s t) (s.turn fuel signal source) (t.turn fuel signal source) := by
  obtain ⟨hstore, hturns⟩ := store_of_snapshot h.snapshot
  obtain ⟨options, store, input, sink, turns, loops, threshold⟩ := s
  obtain ⟨options', store', input', sink', turns', loops', threshold'⟩ := t
  obtain ⟨hoptions, -, hinput, hsink⟩ := h
  obtain rfl : options' = options := hoptions
  obtain rfl : store' = store := hstore
  obtain rfl : turns' = turns := hturns
  unfold Session.turn
  cases Brackets.resolve source with
  | error cause => exact .some ⟨rfl, rfl, rfl, .refl hsink, rfl, rfl, hinput, hsink⟩
  | ok jumps =>
    have hlaunch := Alike.launch store'.tape hinput hsink signal
      { program := source, jumps, eof := options'.eof, limit := options'.stepLimit? } fuel
    simp only [machine, task, count, Stack.clear]
    unfold Machine.fresh at hlaunch
    generalize Machine.launch _ fuel _ = p at hlaunch ⊢
    generalize Machine.launch _ fuel _ = q at hlaunch ⊢
    cases hlaunch with
    | none => exact .none
    | @some a b hstop =>
      have hmachine := hstop.machine
      have htape : b.machine.tape = a.machine.tape := hmachine.tape
      have hsinks := hmachine.outbox.sinks
      refine .some ⟨?_, ?_, hmachine.signal, hsinks, rfl, ?_, hmachine.input, hsinks.alike⟩
      · simp only [Machine.Halt.result, hmachine.steps, hmachine.read, hmachine.written, hstop.reason]
        rfl
      · rw [hstop.fault]
        show a.fault.map (·.displaced {}) = a.fault
        rw [funext Fault.displaced_none, Option.map_id']
      · exact snapshot_congr rfl (congrArg (Store.mk _) htape) rfl

/-- **Sessions that are alike agree for ever.** -/
theorem Alike.agree (h : s.Alike t) (script : List (Signal × Program)) : Agree script s t := by
  induction script generalizing s t with
  | nil => trivial
  | cons step rest ih =>
    intro fuel
    have hturn := h.turn fuel step.1 step.2
    generalize s.turn fuel step.1 step.2 = p at hturn
    generalize t.turn fuel step.1 step.2 = q at hturn
    cases hturn with
    | none => exact .none
    | some halike => exact .some ⟨halike, ih halike.session⟩

theorem WellFormed.create {o : Options} (h : WellFormed o s) (input : Input) (sink : Option Sink)
    (threshold : Option Log.Level) :
    ∃ new, Session.create o input sink threshold = .ok new ∧ new.options = o ∧ new.input = input ∧
      new.sink = sink ∧ new.store = s.store.reset ∧ new.turns = 0 := by
  obtain ⟨-, -, hwidth, -⟩ := Options.bounds_of_objection? h.valid
  have hsize : o.tapeSize.toNat = s.store.size := by
    have := h.size
    omega
  have hown := h.width
  have hblank {w : Nat} (hw : s.store.width = w) : Store.mk w (Tape.blank s.store.size) = s.store.reset := by
    subst hw
    rfl
  simp only [Session.create, Store.ofOptions, Options.fault?, h.valid, Option.map_none, hsize]
  by_cases hwide : o.cellWidth = 16
  · rw [if_pos hwide]
    exact ⟨_, rfl, rfl, rfl, rfl, hblank (by omega), rfl⟩
  · rw [if_neg hwide]
    exact ⟨_, rfl, rfl, rfl, rfl, hblank (by omega), rfl⟩

/-- **A snapshot is the whole state of a session.** Take any two sessions made from the same options, whatever
happened to each, with streams that have the same future. If their snapshots are equal, they agree on every
script of turns. In any case the snapshot of the second can be restored into the first, which then agrees
with it; and a session that is reset agrees with a new one on the same streams. -/
theorem snapshot_is_state (o : Options) (r s : Session) (hr : Reachable o r) (hs : Reachable o s)
    (hinput : r.input.Alike s.input) (hsink : Option.Rel Sink.Alike r.sink s.sink) :
    (r.snapshot = s.snapshot → ∀ script, Agree script r s) ∧
    (∃ r', r.restore s.snapshot = .ok r' ∧ r'.snapshot = s.snapshot ∧ r'.input = r.input ∧
      r'.sink = r.sink ∧ ∀ script, Agree script r' s) ∧
    ∃ new, create o s.input s.sink s.threshold = .ok new ∧ s.reset.snapshot = new.snapshot ∧
      ∀ script, Agree script s.reset new := by
  have hwr := hr.wellFormed
  have hws := hs.wellFormed
  have hoptions : s.options = r.options := hws.options.trans hwr.options.symm
  refine ⟨fun hsnap => (Alike.mk hoptions hsnap.symm hinput hsink).agree, ?_, ?_⟩
  · have hwidth : r.store.width = s.store.width := Int.ofNat.inj (hwr.width.trans hws.width.symm)
    have hsize : r.store.size = s.store.size := Int.ofNat.inj (hwr.size.trans hws.size.symm)
    have hsnap : ({ r with store := s.store, turns := s.turns } : Session).snapshot = s.snapshot :=
      snapshot_congr hoptions.symm rfl rfl
    have halike : ({ r with store := s.store, turns := s.turns } : Session).Alike s :=
      ⟨hoptions, hsnap.symm, hinput, hsink⟩
    exact ⟨_, restore_snapshot hwidth hsize hws.tape.pointer, hsnap, rfl, rfl, halike.agree⟩
  · obtain ⟨new, hnew, hopt, hin, hout, hstore, hturns⟩ := hws.create s.input s.sink s.threshold
    have hsnap : new.snapshot = s.reset.snapshot :=
      snapshot_congr (hopt.trans hws.options.symm) hstore hturns
    have halike : s.reset.Alike new :=
      ⟨hopt.trans hws.options.symm, hsnap, by rw [hin]; exact .refl s.input, by rw [hout]; exact Sink.Alike.refl? s.sink⟩
    exact ⟨new, hnew, hsnap.symm, halike.agree⟩

/-- A turn broken off inside two loops leaves a stack behind, and the session still agrees with one that came
to the same snapshot without any loop. -/
theorem snapshot_is_state_broken_off :
    ∃ r s : Session, r.loops.items = [2, 1] ∧ s.loops.items = [] ∧ r.snapshot = s.snapshot ∧
      ∀ script, Agree script r s := by
  have hnew : Reachable { tapeSize := 2, maxSteps := 3 }
      { options := { tapeSize := 2, maxSteps := 3 }, store := ⟨8, Tape.blank 2⟩ } :=
    @Reachable.created _ .absent none none _ rfl
  -- The programs are `+[[]]`, which the limit stops, and `+`.
  obtain ⟨r, hr, hturn⟩ : ∃ t : Turn, Reachable { tapeSize := 2, maxSteps := 3 } t.session ∧
      t.session.loops.items = [2, 1] ∧ t.session.input = .absent ∧ t.session.sink = none ∧
      t.session.snapshot = ⟨2, 8, "unchanged", 0, 1, [(0, 1)]⟩ :=
    ⟨_, @Reachable.turned _ _ 4 .clear #[0x2b, 0x5b, 0x5b, 0x5d, 0x5d] _ hnew rfl, rfl, rfl, rfl, rfl⟩
  obtain ⟨s, hs, hturn'⟩ : ∃ t : Turn, Reachable { tapeSize := 2, maxSteps := 3 } t.session ∧
      t.session.loops.items = [] ∧ t.session.input = .absent ∧ t.session.sink = none ∧
      t.session.snapshot = ⟨2, 8, "unchanged", 0, 1, [(0, 1)]⟩ :=
    ⟨_, @Reachable.turned _ _ 2 .clear #[0x2b] _ hnew rfl, rfl, rfl, rfl, rfl⟩
  obtain ⟨hloops, hinput, hsink, hsnap⟩ := hturn
  obtain ⟨hloops', hinput', hsink', hsnap'⟩ := hturn'
  have hstate := snapshot_is_state _ r.session s.session hr hs (by rw [hinput, hinput']; exact .absent)
    (by rw [hsink, hsink']; exact .none)
  exact ⟨r.session, s.session, hloops, hloops', hsnap.trans hsnap'.symm, hstate.1 (hsnap.trans hsnap'.symm)⟩

end Session
end TapeMachine
