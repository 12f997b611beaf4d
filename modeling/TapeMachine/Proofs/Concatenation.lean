import TapeMachine.Proofs.Calm
import TapeMachine.Proofs.LoopStack
import TapeMachine.Proofs.Sessions

/-! Two turns are one.

Turning two balanced programs one after the other does what one turn of the two together does. The table of
the whole is that of the first program, followed by that of the second shifted behind it (`mate_append`,
`mate_add`). While the position is in the first program, the whole takes the steps of the first
(`step_of_within`), so it fails or runs for ever where the first does. Where the first ends well, the position
is behind it and no loop is open; from there the whole runs in lockstep with the second program alone, ahead
of it by what the first has done (`Coupling.joined`). The two differ in when they flush: their outboxes carry
the same bytes, and what they carry is taken when they stop. -/
namespace TapeMachine

/-! ### Programs -/

namespace Tree

theorem text_append (t u : Tree) : (t.append u).text = t.text ++ u.text := by
  induction t with
  | done => rfl
  | plain b h rest ih => rw [append, text, ih, text, List.cons_append]
  | loop body rest _ ihr =>
    rw [append, text, ihr, text, List.cons_append, List.append_assoc, List.cons_append]

theorem mate_append (t u : Tree) (a i : Nat) :
    (t.append u).mate a i = if i < a + t.size then t.mate a i else u.mate (a + t.size) i := by
  induction t generalizing a with
  | done =>
    rw [append, size, Nat.add_zero]
    split
    · exact mate_eq_none (.inl ‹_›)
    · rfl
  | plain b h rest ih =>
    rw [append, mate, ih, mate, size, Nat.add_assoc, Nat.add_comm 1]
  | loop body rest _ ihr =>
    have hsize : a + body.size + 2 + rest.size = a + (Tree.loop body rest).size := by
      rw [size]
      omega
    rw [append, mate, ihr, hsize, mate]
    by_cases hi : i < a + (Tree.loop body rest).size
    · rw [if_pos hi, if_pos hi]
    · have := hsize
      rw [if_neg hi, if_neg hi, if_neg (by omega), if_neg (by omega), if_neg (by omega)]

theorem mate_add (t : Tree) (a i k : Nat) : t.mate (a + k) (i + k) = (t.mate a i).map (· + k) := by
  induction t generalizing a with
  | done => rfl
  | plain b h rest ih => rw [mate, Nat.add_right_comm, ih, mate]
  | loop body rest ihb ihr =>
    have hend : a + k + body.size + 1 = a + body.size + 1 + k := by omega
    have hbody := ihb (a + 1)
    have hrest := ihr (a + body.size + 2)
    rw [show a + 1 + k = a + k + 1 by omega] at hbody
    rw [show a + body.size + 2 + k = a + k + body.size + 2 by omega] at hrest
    simp only [mate, hend, hbody, hrest, Nat.add_right_cancel_iff, Nat.add_lt_add_iff_right]
    split
    · rfl
    · split
      · rfl
      · split <;> rfl

end Tree

/-- The whole task starts with the program of the first one and follows its table there. -/
structure Task.StartsWith (whole task : Task) : Prop where
  program : ∀ i, i < task.program.size → whole.program[i]? = task.program[i]?
  jumps : ∀ i, i < task.program.size → whole.jumps.partner? i = task.jumps.partner? i
  eof : whole.eof = task.eof
  limit : whole.limit = task.limit

/-! ### Streams that cancel nothing -/

theorem Sink.Took.isOpen {sent : List UInt8} {s₀ s : Sink} (h : Sink.Took sent s₀ s) (hopen : s₀.IsOpen) :
    s.IsOpen := by
  obtain ⟨calls, hcalls, -⟩ := h.writes
  have hsize := congrArg List.length hcalls
  rw [List.length_append, Array.length_toList, Array.length_toList] at hsize
  have := hopen.calm
  exact ⟨h.acceptsAll, by rw [h.cancelAt]; omega⟩

/-- Streams of machines of which one is ahead by a program that wrote `pre`. The one in front has its outbox before
the sink `sink₀` from the start, the other before `sink₁` from its own. -/
def Coupling.Streams.joined (lead : Lead) (sink₀ sink₁ : Option Sink) (pre : List UInt8)
    (h₀ : ∀ s, sink₀ = some s → s.IsOpen) (h₁ : ∀ s, sink₁ = some s → s.IsOpen) : Coupling.Streams where
  lead
  input i j := j = i ∧ i.Calm
  outbox o p := ∃ out, o.Carries sink₁ out ∧ p.Carries sink₀ (pre ++ out)
  answer h := by rw [h.1]
  left h := ⟨by rw [h.1], h.2.readByte.1⟩
  hears h := ⟨by rw [h.1], fun _ => h.2.readByte.2⟩
  failure h := by
    obtain ⟨out, ho, hp⟩ := h
    rw [ho.healthy, hp.healthy]
  put b := Outbox.keeps_put h₀ h₁ pre b
  flush := Outbox.keeps_flush h₀ h₁ pre

/-- Machines on the same tape and input, of which one is ahead by a program that wrote `pre`. -/
def Coupling.joined (w : Nat) (lead : Lead) (sink₀ sink₁ : Option Sink) (pre : List UInt8)
    (h₀ : ∀ s, sink₀ = some s → s.IsOpen) (h₁ : ∀ s, sink₁ = some s → s.IsOpen) : Coupling w w :=
  (Streams.joined lead sink₀ sink₁ pre h₀ h₁).onTape w

namespace Machine
variable {w : Nat} {task whole : Task}

theorem ip_lt_of_givesUp {m n : Machine w} {reason : StopReason} {given : Fault}
    (h : GivesUp task m n reason given) : m.ip < task.program.size := by
  have hinside {byte : UInt8} (hdue : m.due task = some byte) : m.ip < task.program.size :=
    (Array.getElem?_eq_some_iff.mp (program_of_due hdue)).1
  cases h with
  | spent hip => exact hip
  | interrupted hip => exact hip
  | writing hdue => exact hinside hdue
  | flushing hdue => exact hinside hdue
  | reading hdue => exact hinside hdue
  | unrecorded hdue => exact hinside hdue
  | stray hdue => exact hinside hdue

/-! ### Within the first program -/

theorem enter_congr {jumps jumps' : JumpTable} {m : Machine w}
    (h : jumps'.partner? m.ip = jumps.partner? m.ip) : m.enter jumps' = m.enter jumps := by
  rw [enter, enter, h]

theorem step_of_within (h : whole.StartsWith task) {m : Machine w} (hip : m.ip < task.program.size) :
    m.step whole = m.step task := by
  have henter : m.counted.enter whole.jumps = m.counted.enter task.jumps := enter_congr (h.jumps m.ip hip)
  unfold step
  rw [h.program m.ip hip, h.limit]
  cases task.program[m.ip]? with
  | none => rfl
  | some byte =>
    simp only [execute, h.eof]
    rw [show enter whole.jumps { m with steps := m.steps + 1, signal := m.signal.advance } = _ from henter]
    rfl

theorem run_of_within (h : whole.StartsWith task) {m m' : Machine w} {visited : List (Machine w)}
    (hrun : Run task m visited m') : Run whole m visited m' := by
  induction hrun with
  | nil m => exact .nil m
  | cons hstep _ ih =>
    obtain ⟨byte, hdue, -⟩ := due_of_running hstep
    have hip := (Array.getElem?_eq_some_iff.mp (program_of_due hdue)).1
    exact .cons ((step_of_within h hip).trans hstep) ih

theorem run_eq_none_of_within (h : whole.StartsWith task) {m : Machine w}
    (hnone : ∀ fuel, run task fuel m = none) (fuel : Nat) : run whole fuel m = none := by
  induction fuel generalizing m with
  | zero => rfl
  | succ fuel ih =>
    have hip : m.ip < task.program.size := by
      apply Decidable.byContradiction
      intro hout
      have hend : task.program[m.ip]? = none := Array.getElem?_eq_none_iff.mpr (Nat.le_of_not_lt hout)
      have := hnone 1
      rcases finish_cases m with ⟨-, hf⟩ | ⟨text, -, hf⟩ <;> simp [run, step, hend, hf] at this
    rw [run, step_of_within h hip]
    cases hstep : m.step task with
    | running m' =>
      refine ih (fun fuel => ?_)
      have := hnone (fuel + 1)
      rw [run, hstep] at this
      exact this
    | stopped m' reason fault =>
      have := hnone 1
      rw [run, hstep] at this
      cases this

/-! ### Behind the first program -/

open Brackets in
/-- A run of a balanced program does not leave it but at its end. -/
theorem ip_le_of_run {t : Tree} (ht : t.text = task.program.toList)
    (hjumps : ∀ i, task.jumps.partner? i = t.mate 0 i) {m m' : Machine w} {visited : List (Machine w)}
    (hopen : OpenAt t m.ip m.loops.items) (hle : m.ip ≤ task.program.size)
    (hrun : Run task m visited m') : m'.ip ≤ task.program.size := by
  have hsize : t.size = task.program.size := by rw [← Tree.length_text, ht, Array.length_toList]
  refine (hrun.invariant (P := fun _ n => OpenAt t n.ip n.loops.items ∧ n.ip ≤ task.program.size)
    ⟨hopen, hle⟩ (fun _ n n' hn hstep => ⟨openAt_step ht hjumps hn.1 hstep, ?_⟩)).2
  have hinside {byte : UInt8} (hdue : n.due task = some byte) : n.ip < task.program.size :=
    (Array.getElem?_eq_some_iff.mp (program_of_due hdue)).1
  cases advances_of_running hstep with
  | shift hdue => exact hinside hdue
  | write hdue => exact hinside hdue
  | read hdue => exact hinside hdue
  | ended hdue => exact hinside hdue
  | skip _ _ hj =>
    rw [hjumps] at hj
    have := Tree.mate_bounds hj
    show _ + 1 ≤ task.program.size
    omega
  | enter hdue => exact hinside hdue
  | leave hdue => exact hinside hdue
  | back hdue hitems =>
    -- The loop gone back to was opened before.
    obtain ⟨c, -, hlt, -⟩ := (hn.1.mem_iff _).mp (by rw [hitems]; exact List.mem_cons_self ..)
    exact Nat.le_of_lt (Nat.lt_trans hlt (hinside hdue))

/-- What two runs amount to together: the state that the second has left, and the counters of both. -/
structure Joins (first second both : Halt w) : Prop where
  tape : both.machine.tape = second.machine.tape
  input : both.machine.input = second.machine.input
  delivered : both.machine.outbox.sink.map (·.delivered) = second.machine.outbox.sink.map (·.delivered)
  reason : both.reason = second.reason
  kinds : both.fault.map Fault.kinds = second.fault.map Fault.kinds
  steps : both.machine.steps = first.machine.steps + second.machine.steps
  read : both.machine.read = first.machine.read + second.machine.read
  written : both.machine.written = first.machine.written + second.machine.written

theorem delivered_of_took {pre out : List UInt8} {sink₀ sink₁ sink₂ sink : Option Sink}
    (h₁ : Option.Rel (Sink.Took pre) sink₀ sink₁) (h₂ : Option.Rel (Sink.Took out) sink₁ sink₂)
    (h : Option.Rel (Sink.Took (pre ++ out)) sink₀ sink) :
    sink.map (·.delivered) = sink₂.map (·.delivered) := by
  cases h₁ with
  | none =>
    cases h₂
    cases h
    rfl
  | some h₁ =>
    cases h₂ with
    | some h₂ =>
      cases h with
      | some h =>
        refine congrArg some (Array.toList_inj.mp ?_)
        rw [h.delivered, h₂.delivered, h₁.delivered, List.append_assoc]

/-- A run that was ahead, and has stopped alike, joins what it was ahead by. -/
theorem joins_of_stopsAlike {lead : Lead} {sink₀ sink₁ : Option Sink} {pre : List UInt8}
    {h₀ : ∀ s, sink₀ = some s → s.IsOpen} {h₁ : ∀ s, sink₁ = some s → s.IsOpen} {h k k' : Halt w}
    (hstop : StopsAlike (.joined w lead sink₀ sink₁ pre h₀ h₁) k k')
    (htook : Option.Rel (Sink.Took pre) sink₀ sink₁)
    (hk : k.machine.outbox.flush = k.machine.outbox) (hk' : k'.machine.outbox.flush = k'.machine.outbox)
    (hsteps : lead.steps = h.machine.steps) (hread : lead.read = h.machine.read)
    (hwritten : lead.written = h.machine.written) : Joins h k k' := by
  have hmachine := hstop.machine
  obtain ⟨out, hcarries, hcarries'⟩ := hmachine.outbox
  have hempty := hcarries.flush.2
  have hempty' := hcarries'.flush.2
  rw [hk] at hempty
  rw [hk'] at hempty'
  refine ⟨hmachine.tape, hmachine.input.1, ?_, hstop.reason, ?_, ?_, ?_, ?_⟩
  · exact delivered_of_took htook (hcarries.took hempty) (hcarries'.took hempty')
  · rw [hstop.fault, Option.map_map]
    exact congrFun (congrArg _ (funext fun fault => fault.kinds_displaced lead)) _
  · rw [← hsteps, Nat.add_comm]
    exact hmachine.steps
  · rw [← hread, Nat.add_comm]
    exact hmachine.read
  · rw [← hwritten, Nat.add_comm]
    exact hmachine.written

/-- Where a balanced program ends well, the machine is behind its last byte with no loop open, and has flushed
what it carried. -/
theorem last_of_finished {t : Tree} (ht : t.text = task.program.toList)
    (hjumps : ∀ i, task.jumps.partner? i = t.mate 0 i) {m last : Machine w} {visited : List (Machine w)}
    {h : Halt w} (hopen : OpenAt t m.ip m.loops.items) (hle : m.ip ≤ task.program.size)
    (hrun : Run task m visited last) (hstop : last.step task = .stopped h.machine h.reason h.fault)
    (hfinished : h.reason = .finished) :
    last.ip = task.program.size ∧ last.loops.items = [] ∧ h.machine = last.flush := by
  obtain ⟨machine, reason, fault⟩ := h
  obtain rfl : reason = .finished := hfinished
  rcases stop_cases hstop with ⟨hend, hf⟩ | ⟨n, given, hgive, -⟩
  · have hle := ip_le_of_run ht hjumps hopen hle hrun
    have hge := Array.getElem?_eq_none_iff.mp hend
    have hsize : t.size = task.program.size := by rw [← Tree.length_text, ht, Array.length_toList]
    exact ⟨Nat.le_antisymm hle hge, (openAt_run ht hjumps hopen hrun).behind (by rw [hsize]; exact hge),
      machine_of_finish hf⟩
  · cases hgive

section
variable {first second : Task} {t : Tree} {tape : Tape w} {input : Input} {sink : Option Sink}
  (ht : t.text = first.program.toList) (hjumps : ∀ i, first.jumps.partner? i = t.mate 0 i)
  (hfirst : whole.StartsWith first)
  (hsecond : ∀ lead : Lead, lead.ip = first.program.size → second.Displaced lead whole)
  (hinput : input.Calm) (hsink : ∀ s, sink = some s → s.IsOpen)
include ht hjumps hfirst hsecond hinput hsink

/-- **The whole goes on with the second program**, where the first ends well: after the steps of the first it
stops in as many further steps as the second does, and the two runs join; or neither stops. -/
theorem joins_of_finished {h : Halt w} (hhalts : Halts first (fresh tape input sink .clear) h)
    (hfinished : h.reason = .finished) :
    ∃ made, ∀ fuel, Option.Rel (Joins h)
      (run second fuel (fresh h.machine.tape h.machine.input h.machine.outbox.sink .clear))
      (run whole (made + fuel) (fresh tape input sink .clear)) := by
  obtain ⟨visited, hafter⟩ := halts_iff.mp hhalts
  cases hafter with
  | cancelled hraised => cases hraised
  | @stopped _ last _ _ hrun hstop =>
    obtain ⟨hip, hloops, hmachine⟩ :=
      last_of_finished ht hjumps (.start t) (Nat.zero_le _) hrun hstop hfinished
    have hcalm : last.Calm :=
      Calm.run (m := fresh tape input sink .clear) ⟨rfl, hinput, fun s hs => (hsink s hs).calm⟩ hrun
    obtain ⟨hcarries, -⟩ := carries_run (fun s hs => (hsink s hs).toAcceptsAll) hrun
    have htook : Option.Rel (Sink.Took (outputs first visited)) sink last.flush.outbox.sink :=
      hcarries.flush.1.took hcarries.flush.2
    -- The second program finds a sink that accepts everything, too.
    have hsink' : ∀ s, last.flush.outbox.sink = some s → s.IsOpen := by
      intro s hs
      rw [hs] at htook
      cases htook with
      | some h => exact h.isOpen (hsink _ rfl)
    rw [hmachine]
    let lead : Lead := ⟨first.program.size, last.steps, last.read, last.written⟩
    have hcoupled : Coupled (.joined w lead sink last.flush.outbox.sink (outputs first visited) hsink hsink')
        (fresh last.tape last.input last.flush.outbox.sink .clear) last :=
      { tape := rfl
        input := ⟨rfl, hcalm.input⟩
        outbox := ⟨[], .start fun s hs => (hsink' s hs).toAcceptsAll, by rw [List.append_nil]; exact hcarries⟩
        signal := hcalm.signal
        quiet := fun _ => rfl
        ip := hip.trans (Nat.zero_add _).symm
        loops := hloops
        steps := (Nat.zero_add _).symm
        read := (Nat.zero_add _).symm
        written := (Nat.zero_add _).symm }
    refine ⟨visited.length, fun fuel => ?_⟩
    rw [(run_of_within hfirst hrun).run_add]
    have hlock := hcoupled.run (fun h => by rw [h]) (hsecond lead rfl) fuel
    have hflushed (k : Halt w) := @flushed_of_run w second
      (fresh last.tape last.input last.flush.outbox.sink .clear) fuel k
    have hflushed' (k : Halt w) := @flushed_of_run w whole last fuel k
    show Option.Rel (Joins h)
      (run second fuel (fresh last.tape last.input last.flush.outbox.sink .clear)) (run whole fuel last)
    generalize run second fuel _ = x at hlock hflushed ⊢
    generalize run whole fuel last = y at hlock hflushed' ⊢
    cases hlock with
    | none => exact .none
    | some hstop =>
      exact .some (joins_of_stopsAlike hstop htook (hflushed _ rfl) (hflushed' _ rfl)
        (by rw [hmachine]; rfl) (by rw [hmachine]; rfl) (by rw [hmachine]; rfl))

/-- So the whole halts exactly if the second program does, and then the runs join. -/
theorem halts_second_iff {h : Halt w} (hhalts : Halts first (fresh tape input sink .clear) h)
    (hfinished : h.reason = .finished) :
    let rest := fresh h.machine.tape h.machine.input h.machine.outbox.sink .clear
    (∀ k, Halts second rest k → ∃ k', Halts whole (fresh tape input sink .clear) k' ∧ Joins h k k') ∧
      ∀ k', Halts whole (fresh tape input sink .clear) k' → ∃ k, Halts second rest k ∧ Joins h k k' := by
  obtain ⟨made, hrel⟩ := joins_of_finished ht hjumps hfirst hsecond hinput hsink hhalts hfinished
  refine ⟨fun k hk => ?_, fun k' hk' => ?_⟩
  · obtain ⟨fuel, hfuel⟩ := hk
    have hfuel : run second fuel _ = some k := hfuel
    have := hrel fuel
    rw [hfuel] at this
    cases hwhole : run whole (made + fuel) (fresh tape input sink .clear) with
    | none =>
      rw [hwhole] at this
      cases this
    | some k' =>
      rw [hwhole] at this
      cases this with
      | some hjoins => exact ⟨k', ⟨_, hwhole⟩, hjoins⟩
  · obtain ⟨fuel, hfuel⟩ := hk'
    have hfuel : run whole fuel _ = some k' := hfuel
    have := hrel fuel
    rw [run_mono hfuel (Nat.le_add_left fuel made)] at this
    cases hrest : run second fuel (fresh h.machine.tape h.machine.input h.machine.outbox.sink .clear) with
    | none =>
      rw [hrest] at this
      cases this
    | some k =>
      rw [hrest] at this
      cases this with
      | some hjoins => exact ⟨k, ⟨_, hrest⟩, hjoins⟩

omit ht hjumps hsecond hinput in
theorem halts_of_unfinished {h : Halt w} (hhalts : Halts first (fresh tape input sink .clear) h)
    (hunfinished : h.reason ≠ .finished) : Halts whole (fresh tape input sink .clear) h := by
  obtain ⟨visited, hafter⟩ := halts_iff.mp hhalts
  cases hafter with
  | cancelled hraised => cases hraised
  | @stopped _ last _ _ hrun hstop =>
    obtain ⟨hcarries, -⟩ := carries_run (fun s hs => (hsink s hs).toAcceptsAll) hrun
    have hip : last.ip < first.program.size := by
      rcases stop_cases hstop with ⟨-, hf⟩ | ⟨n, given, hgive, -⟩
      · -- Behind the program only a failure to flush would not be a good end.
        rcases finish_cases last with ⟨-, hm⟩ | ⟨text, hfailed, -⟩
        · rw [hm] at hf
          exact absurd (Progress.stopped.inj hf).2.1.symm hunfinished
        · cases hfailed.symm.trans hcarries.flush.1.healthy
      · exact ip_lt_of_givesUp hgive
    refine halts_iff.mpr ⟨visited, .stopped rfl (run_of_within hfirst hrun) ?_⟩
    rw [step_of_within hfirst hip]
    exact hstop

end

end Machine

/-! ### Turns -/

namespace Session
open Machine

/-- A turn that amounts to two, `t` and then `u`: it leaves the tape, the input and the delivered bytes that
`u` leaves, ends as `u` ends, and counts what both count. -/
structure Joined (t u both : Turn) : Prop where
  store : both.session.store = u.session.store
  input : both.session.input = u.session.input
  delivered : both.session.sink.map (·.delivered) = u.session.sink.map (·.delivered)
  stop : both.result.stop = u.result.stop
  kinds : both.fault.map Fault.kinds = u.fault.map Fault.kinds
  steps : both.result.steps = t.result.steps + u.result.steps
  read : both.result.read = t.result.read + u.result.read
  written : both.result.written = t.result.written + u.result.written

variable {s : Session} {signal : Signal} {source : Program} {jumps : JumpTable}

theorem halts_of_turns (hresolve : Brackets.resolve source = .ok jumps) {t : Turn}
    (h : s.Turns signal source t) :
    ∃ halt, Halts (s.task source jumps) (s.machine signal) halt ∧ t.session = s.count.settle halt.machine ∧
      t.result = halt.result ∧ t.fault = halt.fault := by
  obtain ⟨fuel, hturn⟩ := h
  rcases turn_cases hturn with ⟨cause, herror, -⟩ | ⟨jumps', halt, hok, hlaunch, hsession, hresult, hfault, -⟩
  · cases hresolve.symm.trans herror
  · obtain rfl := Except.ok.inj (hresolve.symm.trans hok)
    exact ⟨halt, ⟨fuel, hlaunch⟩, hsession, hresult, hfault⟩

theorem turns_of_halts (hresolve : Brackets.resolve source = .ok jumps) {halt : Halt s.store.width}
    (h : Halts (s.task source jumps) (s.machine signal) halt) :
    ∃ t, s.Turns signal source t ∧ t.session = s.count.settle halt.machine ∧ t.result = halt.result ∧
      t.fault = halt.fault := by
  obtain ⟨fuel, hlaunch⟩ := h
  cases hturn : s.turn fuel signal source with
  | none =>
    have hlaunch : (s.count.machine signal).launch (s.count.task source jumps) fuel = some halt := hlaunch
    simp only [turn, hresolve, hlaunch] at hturn
    cases hturn
  | some t =>
    obtain ⟨halt', hhalts, hfields⟩ := halts_of_turns hresolve ⟨fuel, hturn⟩
    obtain rfl := hhalts.unique ⟨fuel, hlaunch⟩
    exact ⟨t, ⟨fuel, hturn⟩, hfields⟩

theorem joined_of_joins {t u both : Turn} {s₁ s₂ : Session} {w : Nat} {h k k' : Halt w}
    (hjoins : Joins h k k') (ht : t.result = h.result) (hu : u.session = s₁.settle k.machine)
    (hu' : u.result = k.result ∧ u.fault = k.fault) (hboth : both.session = s₂.settle k'.machine)
    (hboth' : both.result = k'.result ∧ both.fault = k'.fault) : Joined t u both := by
  obtain ⟨hur, huf⟩ := hu'
  obtain ⟨hbr, hbf⟩ := hboth'
  constructor
  · rw [hboth, hu]
    exact congrArg (Store.mk w) hjoins.tape
  · rw [hboth, hu]
    exact hjoins.input
  · rw [hboth, hu]
    exact hjoins.delivered
  · rw [hbr, hur]
    exact hjoins.reason
  · rw [hbf, huf]
    exact hjoins.kinds
  · rw [hbr, hur, ht]
    exact hjoins.steps
  · rw [hbr, hur, ht]
    exact hjoins.read
  · rw [hbr, hur, ht]
    exact hjoins.written

open Brackets

/-- The task of two balanced programs starts with the first and goes on with the second. -/
theorem task_append {p q : Program} {t u : Tree} (ht : t.text = p.toList) (hu : u.text = q.toList)
    (hlimit : s.options.maxSteps = 0) :
    ∃ jp jq jpq, resolve p = .ok jp ∧ resolve q = .ok jq ∧ resolve (p ++ q) = .ok jpq ∧
      (∀ i, jp.partner? i = t.mate 0 i) ∧ (s.task (p ++ q) jpq).StartsWith (s.task p jp) ∧
      ∀ lead : Lead, lead.ip = p.size → (s.task q jq).Displaced lead (s.task (p ++ q) jpq) := by
  have htext : (t.append u).text = (p ++ q).toList := by rw [Tree.text_append, ht, hu, Array.toList_append]
  have hsize : t.size = p.size := by rw [← Tree.length_text, ht, Array.length_toList]
  -- The table of each program is the matching of its tree.
  have htable {program : Program} {tree : Tree} (h : tree.text = program.toList) :
      ∃ j, resolve program = .ok j ∧ ∀ i, j.partner? i = tree.mate 0 i := by
    obtain ⟨tree', h', -, -, hmate⟩ := exists_tree (resolve_text h)
    obtain rfl : tree' = tree := Option.some.inj
      ((Tree.parse?_eq_some_iff.mpr h').symm.trans (Tree.parse?_eq_some_iff.mpr h))
    exact ⟨_, resolve_text h, hmate⟩
  obtain ⟨jp, hjp, hp⟩ := htable ht
  obtain ⟨jq, hjq, hq⟩ := htable hu
  obtain ⟨jpq, hjpq, hpq⟩ := htable htext
  refine ⟨jp, jq, jpq, hjp, hjq, hjpq, hp, ⟨?_, ?_, rfl, rfl⟩, fun lead hlead => ⟨?_, ?_, rfl, ?_⟩⟩
  · intro i hi
    exact Array.getElem?_append_left hi
  · intro i hi
    have hi : i < p.size := hi
    show jpq.partner? i = jp.partner? i
    rw [hpq, hp, Tree.mate_append, if_pos (by omega)]
  · intro i
    show (p ++ q)[i + lead.ip]? = q[i]?
    rw [hlead, Array.getElem?_append_right (Nat.le_add_left _ _), Nat.add_sub_cancel]
  · intro i _
    show jpq.partner? (i + lead.ip) = (jq.partner? i).map (· + lead.ip)
    rw [hpq, hq, hlead, Tree.mate_append, if_neg (by omega), ← hsize, Tree.mate_add]
  · simp [task, Options.stepLimit?, hlimit]

/-- **Splitting a program into turns does not change its meaning.** Let `p` and `q` be balanced, the session
without a step limit, its input and its sink such that no call cancels, and the sink accept everything. If
the turn of `p` ends well, then the turn of `q` after it ends exactly if the turn of `p ++ q` ends, and this
one amounts to the two. If the turn of `p` ends otherwise, the turn of `p ++ q` ends in the same session with
the same result and fault; and it does not end if that of `p` does not. -/
theorem turn_append (s : Session) (p q : Program) (hp : Balanced (word p.toList))
    (hq : Balanced (word q.toList)) (hlimit : s.options.maxSteps = 0) (hinput : s.input.Calm)
    (hsink : ∀ k, s.sink = some k → k.IsOpen) :
    (∀ t, s.Turns .clear p t → t.result.stop = .finished →
      (∀ u, t.session.Turns .clear q u → ∃ both, s.Turns .clear (p ++ q) both ∧ Joined t u both) ∧
      ∀ both, s.Turns .clear (p ++ q) both → ∃ u, t.session.Turns .clear q u ∧ Joined t u both) ∧
    (∀ t, s.Turns .clear p t → t.result.stop ≠ .finished →
      ∃ both, s.Turns .clear (p ++ q) both ∧ both.session = t.session ∧ both.result = t.result ∧
        both.fault = t.fault) ∧
    ((¬∃ t, s.Turns .clear p t) → ¬∃ both, s.Turns .clear (p ++ q) both) := by
  obtain ⟨tp, htp⟩ := (balanced_word_iff _).mp hp
  obtain ⟨tq, htq⟩ := (balanced_word_iff _).mp hq
  obtain ⟨jp, jq, jpq, hjp, hjq, hjpq, hmate, hfirst, hsecond⟩ := task_append htp htq hlimit
  refine ⟨fun t hturn hstop => ?_, fun t hturn hstop => ?_, fun hnone => ?_⟩
  · obtain ⟨h, hhalts, hsession, hresult, -⟩ := halts_of_turns hjp hturn
    have hfinished : h.reason = .finished := by rw [← hstop, hresult]; rfl
    obtain ⟨hjoin, hjoin'⟩ := halts_second_iff htp hmate hfirst hsecond hinput hsink hhalts hfinished
    rw [hsession]
    refine ⟨fun u hu => ?_, fun both hboth => ?_⟩
    · obtain ⟨k, hk, husession, hufields⟩ := halts_of_turns hjq hu
      obtain ⟨k', hk', hjoins⟩ := hjoin k hk
      obtain ⟨both, hboth, hbsession, hbfields⟩ := turns_of_halts hjpq hk'
      exact ⟨both, hboth, joined_of_joins hjoins hresult husession hufields hbsession hbfields⟩
    · obtain ⟨k', hk', hbsession, hbfields⟩ := halts_of_turns hjpq hboth
      obtain ⟨k, hk, hjoins⟩ := hjoin' k' hk'
      obtain ⟨u, hu, husession, hufields⟩ := turns_of_halts (s := s.count.settle h.machine) hjq hk
      exact ⟨u, hu, joined_of_joins hjoins hresult husession hufields hbsession hbfields⟩
  · obtain ⟨h, hhalts, hsession, hresult, hfault⟩ := halts_of_turns hjp hturn
    have hunfinished : h.reason ≠ .finished := by
      rw [hresult] at hstop
      exact hstop
    obtain ⟨both, hboth, hbsession, hbresult, hbfault⟩ :=
      turns_of_halts hjpq (halts_of_unfinished hfirst hsink hhalts hunfinished)
    exact ⟨both, hboth, hbsession.trans hsession.symm, hbresult.trans hresult.symm, hbfault.trans hfault.symm⟩
  · rintro ⟨both, hboth⟩
    obtain ⟨k', ⟨fuel, hfuel⟩, -⟩ := halts_of_turns hjpq hboth
    -- A run of `p` that never stops is one of `p ++ q`.
    have hnever : ∀ fuel, run (s.task p jp) fuel (s.machine .clear) = none := by
      intro fuel
      cases hrun : run (s.task p jp) fuel (s.machine .clear) with
      | none => rfl
      | some h =>
        have hhalts : Halts (s.task p jp) (s.machine .clear) h := ⟨fuel, hrun⟩
        obtain ⟨t, ht, -⟩ := turns_of_halts hjp hhalts
        exact absurd ⟨t, ht⟩ hnone
    have hfuel : run (s.task (p ++ q) jpq) fuel (s.machine .clear) = some k' := hfuel
    rw [run_eq_none_of_within hfirst hnever] at hfuel
    cases hfuel

/-- One program reads a number and moves it to the next cell in a loop, the other writes it and echoes the next
byte of the input: `,[->+<]` and `>.,.`. -/
theorem turn_append_echo :
    ∃ (s : Session) (t both : Turn), s.Turns .clear #[0x2c, 0x5b, 0x2d, 0x3e, 0x2b, 0x3c, 0x5d] t ∧
      t.result = { steps := 13, read := 1 } ∧
      s.Turns .clear (#[0x2c, 0x5b, 0x2d, 0x3e, 0x2b, 0x3c, 0x5d] ++ #[0x3e, 0x2e, 0x2c, 0x2e]) both ∧
      both.session.sink.map (·.delivered) = some #[2, 0x41] ∧
      ∃ u, t.session.Turns .clear #[0x3e, 0x2e, 0x2c, 0x2e] u ∧ Joined t u both := by
  obtain ⟨s, hlimit, hinput, hsink, hfirst, hwhole⟩ : ∃ s : Session, s.options.maxSteps = 0 ∧
      s.input = .plain { data := [2, 0x41] } ∧ s.sink = some {} ∧
      (s.turn 14 .clear #[0x2c, 0x5b, 0x2d, 0x3e, 0x2b, 0x3c, 0x5d]).map (·.result) =
        some { steps := 13, read := 1 } ∧
      (s.turn 18 .clear (#[0x2c, 0x5b, 0x2d, 0x3e, 0x2b, 0x3c, 0x5d] ++ #[0x3e, 0x2e, 0x2c, 0x2e])).map
        (·.session.sink.map (·.delivered)) = some (some #[2, 0x41]) :=
    ⟨{ options := { tapeSize := 2 }, store := ⟨8, Tape.blank 2⟩, input := .plain { data := [2, 0x41] }
       sink := some {} }, rfl, rfl, rfl, by decide +kernel, by decide +kernel⟩
  obtain ⟨t, ht, hresult⟩ := Option.map_eq_some_iff.mp hfirst
  obtain ⟨both, hboth, hdelivered⟩ := Option.map_eq_some_iff.mp hwhole
  have hcalm : s.input.Calm := by
    rw [hinput]
    intro source hs
    obtain rfl := Option.some.inj hs
    exact Nat.le_refl 0
  have hopen : ∀ k, s.sink = some k → k.IsOpen := by
    rw [hsink]
    intro k hk
    obtain rfl := Option.some.inj hk
    exact ⟨⟨rfl, rfl⟩, Nat.le_refl 0⟩
  obtain ⟨hfinished, -⟩ := turn_append s #[0x2c, 0x5b, 0x2d, 0x3e, 0x2b, 0x3c, 0x5d] #[0x3e, 0x2e, 0x2c, 0x2e]
    (Balanced.loop (u := []) (v := []) .nil .nil) .nil hlimit hcalm hopen
  exact ⟨s, t, both, ⟨_, ht⟩, hresult, ⟨_, hboth⟩, hdelivered,
    (hfinished t ⟨_, ht⟩ (by rw [hresult])).2 both ⟨_, hboth⟩⟩

end Session
end TapeMachine
