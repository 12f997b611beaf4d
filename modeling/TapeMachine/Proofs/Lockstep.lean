import TapeMachine.Proofs.Delivery

/-! Two machines in lockstep.

A `Coupling` says when two tapes, two inputs and two outboxes count as the same, and owes the facts that
make the choice a good one: each operation keeps what is the same the same, and answers alike. One machine
may be ahead of the other by a `Lead`, in its program and in its counters. Machines that are coupled and
given the same task, displaced by the lead, then take the same steps (`Coupled.step`): both go on and stay
coupled, or both stop, for the same reason and with the same fault, displaced. By induction so do whole runs
(`Coupled.run`), and one does not end if the other does not; where tapes that count as the same may differ in being
zero, it is enough that no bracket on the way notices (`Coupled.run_along`). -/
namespace TapeMachine

/-- How far a machine is ahead of another, in its program and in its counters. -/
structure Lead where
  ip : Nat := 0
  steps : Nat := 0
  read : Nat := 0
  written : Nat := 0

/-- A counter that is ahead stays ahead. -/
theorem Lead.succ {a b lead : Nat} (h : b = a + lead) : b + 1 = a + 1 + lead := by omega

/-! ### Faults that are displaced -/

/-- The cause as a machine finds it that is ahead by `lead`. -/
def Cause.displaced (lead : Lead) : Cause → Cause
  | .unmatchedOpen i => .unmatchedOpen (i + lead.ip)
  | .unmatchedClose i => .unmatchedClose (i + lead.ip)
  | .unrecordedOpen i => .unrecordedOpen (i + lead.ip)
  | .strayClose i => .strayClose (i + lead.ip)
  | .writing i reason => .writing (i + lead.ip) reason
  | .flushingAt i reason => .flushingAt (i + lead.ip) reason
  | .reading i reason => .reading (i + lead.ip) reason
  | .stepsExecuted n i => .stepsExecuted (n + lead.steps) (i + lead.ip)
  | .afterSteps n i => .afterSteps (n + lead.steps) (i + lead.ip)
  | cause => cause

theorem Cause.displaced_none (cause : Cause) : cause.displaced {} = cause := by cases cause <;> rfl

namespace Fault

/-- The fault as a machine meets it that is ahead by `lead`. -/
def displaced (lead : Lead) : Fault → Fault
  | .caused kind cause => .caused kind (cause.displaced lead)
  | .during activity fault => .during activity (fault.displaced lead)
  | .both first second => .both (first.displaced lead) (second.displaced lead)
  | fault => fault

theorem displaced_none (fault : Fault) : fault.displaced {} = fault := by
  induction fault with
  | caused kind cause => rw [displaced, cause.displaced_none]
  | during activity fault ih => rw [displaced, ih]
  | both first second ih₁ ih₂ => rw [displaced, ih₁, ih₂]
  | _ => rfl

/-- The kinds that occur stay the same. -/
theorem isA_displaced (lead : Lead) (fault : Fault) (kind : Kind) :
    (fault.displaced lead).isA kind = fault.isA kind := by
  induction fault with
  | during activity fault ih => exact ih
  | both first second ih₁ ih₂ => rw [displaced, isA, isA, ih₁, ih₂]
  | _ => rfl

theorem kinds_displaced (lead : Lead) (fault : Fault) : (fault.displaced lead).kinds = fault.kinds := by
  rw [kinds, funext (fault.isA_displaced lead), kinds]

end Fault

/-- The task as a machine sees it that is ahead by `lead`: its program and its table start at `lead.ip`, and
its limit counts the steps made before. -/
structure Task.Displaced (lead : Lead) (task task' : Task) : Prop where
  program : ∀ i, task'.program[i + lead.ip]? = task.program[i]?
  jumps : ∀ i, i < task.program.size →
    task'.jumps.partner? (i + lead.ip) = (task.jumps.partner? i).map (· + lead.ip)
  eof : task'.eof = task.eof
  limit : task'.limit = task.limit.map (· + lead.steps)

theorem Task.Displaced.refl (task : Task) : task.Displaced {} task :=
  ⟨fun _ => rfl, fun i _ => by simp, rfl, by simp⟩

/-! ### Couplings -/

/-- Whether two calls cancel alike. Where one machine has made more steps than the other they look at the
signal at different moments, so then neither call may cancel. -/
structure Lead.Hears (lead : Lead) (b c : Bool) : Prop where
  same : c = b
  quiet : lead.steps ≠ 0 → b = false

/-- An operation on outboxes that keeps a relation, and calls the sinks alike. -/
structure Outbox.Keeps (lead : Lead) (R : Outbox → Outbox → Prop) (act : Outbox → Outbox) : Prop where
  related : ∀ {o p : Outbox}, R o p → R (act o) (act p)
  hears : ∀ {o p : Outbox}, R o p →
    lead.Hears ((act o).hasCancelledSince o.calls) ((act p).hasCancelledSince p.calls)

/-- What counts as the same for the streams of two machines, with what this owes. -/
structure Coupling.Streams where
  lead : Lead := {}
  input : Input → Input → Prop
  outbox : Outbox → Outbox → Prop
  answer : ∀ {i j}, input i j → j.readByte.1 = i.readByte.1
  left : ∀ {i j}, input i j → input i.readByte.2 j.readByte.2
  hears : ∀ {i j}, input i j →
    lead.Hears (i.readByte.2.hasCancelledSince i.calls) (j.readByte.2.hasCancelledSince j.calls)
  failure : ∀ {o p}, outbox o p → p.failure = o.failure
  put : ∀ b, Outbox.Keeps lead outbox (·.put b)
  flush : Outbox.Keeps lead outbox Outbox.flush

/-- What counts as the same for two machines, with what this owes. -/
structure Coupling (w v : Nat) extends Coupling.Streams where
  tape : Tape w → Tape v → Prop
  byte : ∀ {t u}, tape t u → u.byte = t.byte
  moveRight : ∀ {t u}, tape t u → tape t.moveRight u.moveRight
  moveLeft : ∀ {t u}, tape t u → tape t.moveLeft u.moveLeft
  increment : ∀ {t u}, tape t u → tape t.increment u.increment
  decrement : ∀ {t u}, tape t u → tape t.decrement u.decrement
  setByte : ∀ {t u}, tape t u → ∀ b, tape (t.setByte b) (u.setByte b)
  setMax : ∀ {t u}, tape t u → tape t.setMax u.setMax

namespace Outbox

/-- Outboxes that are the same stay the same, whatever is done to them. -/
theorem keeps_same (act : Outbox → Outbox) : Keeps {} (fun o p => p = o) act where
  related h := by rw [h]
  hears h := ⟨by rw [h], fun hlead => absurd rfl hlead⟩

theorem keeps_same_put (b : UInt8) : Keeps {} (fun o p => p = o) (·.put b) := keeps_same _

theorem failure_same {o p : Outbox} (h : p = o) : p.failure = o.failure := by rw [h]

end Outbox

namespace Input

theorem answer_same {i j : Input} (h : j = i) : j.readByte.1 = i.readByte.1 := by rw [h]

theorem left_same {i j : Input} (h : j = i) : j.readByte.2 = i.readByte.2 := by rw [h]

theorem hears_same {i j : Input} (h : j = i) :
    Lead.Hears {} (i.readByte.2.hasCancelledSince i.calls) (j.readByte.2.hasCancelledSince j.calls) :=
  ⟨by rw [h], fun hlead => absurd rfl hlead⟩

end Input

/-- The same streams. -/
def Coupling.Streams.same : Coupling.Streams where
  input i j := j = i
  outbox o p := p = o
  answer := @Input.answer_same
  left := @Input.left_same
  hears := @Input.hears_same
  failure := @Outbox.failure_same
  put := Outbox.keeps_same_put
  flush := Outbox.keeps_same Outbox.flush

/-- Machines on the same tape, coupled by their streams. -/
def Coupling.Streams.onTape (c : Streams) (w : Nat) : Coupling w w where
  toStreams := c
  tape t u := u = t
  byte h := by rw [h]
  moveRight h := by rw [h]
  moveLeft h := by rw [h]
  increment h := by rw [h]
  decrement h := by rw [h]
  setByte h b := by rw [h]
  setMax h := by rw [h]

namespace Coupling
variable {w v : Nat} (c : Coupling w v)

theorem shifted {t : Tape w} {u : Tape v} (h : c.tape t u) (byte : UInt8) :
    c.tape (Machine.shifted byte t) (Machine.shifted byte u) := by
  unfold Machine.shifted
  cases Instruction.ofByte? byte with
  | none => exact h
  | some i =>
    cases i with
    | right => exact c.moveRight h
    | left => exact c.moveLeft h
    | increment => exact c.increment h
    | decrement => exact c.decrement h
    | _ => exact h

theorem applyEof {t : Tape w} {u : Tape v} (h : c.tape t u) (policy : EofPolicy) :
    c.tape (Machine.applyEof policy t) (Machine.applyEof policy u) := by
  cases policy with
  | zero => exact c.setByte h 0
  | max => exact c.setMax h
  | unchanged => exact h
  | unknown => exact h

end Coupling

/-! ### Coupled machines -/

namespace Machine
variable {w v : Nat} {c : Coupling w v}

/-- The second machine is where the first one is, but for the lead. -/
structure Coupled (c : Coupling w v) (m : Machine w) (n : Machine v) : Prop where
  tape : c.tape m.tape n.tape
  input : c.input m.input n.input
  outbox : c.outbox m.outbox n.outbox
  signal : n.signal = m.signal
  quiet : c.lead.steps ≠ 0 → m.signal = .clear
  ip : n.ip = m.ip + c.lead.ip
  loops : n.loops.items = m.loops.items.map (· + c.lead.ip)
  steps : n.steps = m.steps + c.lead.steps
  read : n.read = m.read + c.lead.read
  written : n.written = m.written + c.lead.written

/-- Two machines that have stopped alike. -/
structure StopsAlike (c : Coupling w v) (h : Halt w) (k : Halt v) : Prop where
  machine : Coupled c h.machine k.machine
  reason : k.reason = h.reason
  fault : k.fault = h.fault.map (·.displaced c.lead)

/-- Two steps that lead to the same. -/
inductive StepsAlike (c : Coupling w v) : Progress w → Progress v → Prop
  | running {m : Machine w} {n : Machine v} : Coupled c m n → StepsAlike c (.running m) (.running n)
  | stopped {m : Machine w} {n : Machine v} {reason reason' : StopReason} {fault fault' : Option Fault} :
      StopsAlike c ⟨m, reason, fault⟩ ⟨n, reason', fault'⟩ →
      StepsAlike c (.stopped m reason fault) (.stopped n reason' fault')

/-- A bracket that is due finds the same answer on every tape that counts as the same. -/
def TestsAlike (c : Coupling w v) (task : Task) (m : Machine w) : Prop :=
  ∀ byte, m.due task = some byte → Brackets.isBracket byte = true →
    ∀ u, c.tape m.tape u → u.isZero = m.tape.isZero

namespace Coupled
variable {m : Machine w} {n : Machine v} {task task' : Task}

theorem cancelIf (h : Coupled c m n) {b b' : Bool} (hears : c.lead.Hears b b') :
    n.signal.cancelIf b' = m.signal.cancelIf b ∧
      (c.lead.steps ≠ 0 → m.signal.cancelIf b = .clear) := by
  refine ⟨by rw [h.signal, hears.same], fun hlead => ?_⟩
  rw [h.quiet hlead, hears.quiet hlead]
  rfl

theorem send (h : Coupled c m n) {act : Outbox → Outbox} (hkeeps : Outbox.Keeps c.lead c.outbox act) :
    Coupled c (m.send act) (n.send act) := by
  obtain ⟨hsignal, hquiet⟩ := h.cancelIf (hkeeps.hears h.outbox)
  exact { h with outbox := hkeeps.related h.outbox, signal := hsignal, quiet := hquiet }

theorem flush (h : Coupled c m n) : Coupled c m.flush n.flush := h.send c.flush

theorem take (h : Coupled c m n) : n.take.1 = m.take.1 ∧ Coupled c m.take.2 n.take.2 := by
  obtain ⟨hsignal, hquiet⟩ := h.cancelIf (c.hears h.input)
  exact ⟨c.answer h.input, { h with input := c.left h.input, signal := hsignal, quiet := hquiet }⟩

theorem counted (h : Coupled c m n) : Coupled c m.counted n.counted :=
  { h with
    steps := Lead.succ h.steps
    signal := congrArg Signal.advance h.signal
    quiet := fun hlead => congrArg Signal.advance (h.quiet hlead) }

theorem proceed (h : Coupled c m n) : StepsAlike c m.proceed n.proceed :=
  .running { h with ip := Lead.succ h.ip }

/-- Machines that give up do so alike, also in what they tell of a failure to send the rest. -/
theorem abort (h : Coupled c m n) (reason : StopReason) {fault fault' : Fault}
    (hfault : fault' = fault.displaced c.lead) :
    StepsAlike c (m.abort reason fault) (n.abort reason fault') := by
  have hflush := h.flush
  have hfailure := c.failure hflush.outbox
  subst hfault
  unfold Machine.abort
  simp only [hfailure]
  cases m.flush.outbox.failure with
  | none => exact .stopped ⟨hflush, rfl, rfl⟩
  | some text =>
    refine .stopped ⟨hflush, rfl, ?_⟩
    rw [Fault.isA_displaced]
    cases fault.isA .io <;> rfl

theorem finish (h : Coupled c m n) : StepsAlike c m.finish n.finish := by
  have hflush := h.flush
  have hfailure := c.failure hflush.outbox
  unfold Machine.finish
  simp only [hfailure]
  cases m.flush.outbox.failure with
  | none => exact .stopped ⟨hflush, rfl, rfl⟩
  | some text => exact .stopped ⟨hflush, rfl, rfl⟩

theorem output (h : Coupled c m n) : StepsAlike c m.output n.output := by
  have hsend := h.send (c.put m.tape.byte)
  have hfailure := c.failure hsend.outbox
  unfold Machine.output
  rw [c.byte h.tape]
  simp only [hfailure]
  cases (m.send (·.put m.tape.byte)).outbox.failure with
  | none => exact proceed { hsend with written := Lead.succ hsend.written }
  | some text => exact hsend.abort .failed (by rw [hsend.ip]; rfl)

theorem accept (h : Coupled c m n) (eof : EofPolicy) : StepsAlike c (m.accept eof) (n.accept eof) := by
  have hflush := h.flush
  have hfailure := c.failure hflush.outbox
  obtain ⟨hanswer, htake⟩ := hflush.take
  unfold Machine.accept
  simp only [hfailure]
  cases m.flush.outbox.failure with
  | some text => exact hflush.abort .failed (by rw [hflush.ip]; rfl)
  | none =>
    rcases hm : m.flush.take with ⟨answer, after⟩
    rcases hn : n.flush.take with ⟨answer', after'⟩
    rw [hm, hn] at hanswer htake
    obtain rfl : answer' = answer := hanswer
    cases answer' with
    | ok b =>
      exact proceed { htake with tape := c.setByte htake.tape b, read := Lead.succ htake.read }
    | error fault =>
      simp only
      cases fault.isA .endOfInput with
      | true => exact proceed { htake with tape := c.applyEof htake.tape eof }
      | false => exact htake.abort .failed (by rw [htake.ip]; rfl)

theorem enter (h : Coupled c m n) (hzero : n.tape.isZero = m.tape.isZero)
    (hjumps : task'.jumps.partner? n.ip = (task.jumps.partner? m.ip).map (· + c.lead.ip)) :
    StepsAlike c (m.enter task.jumps) (n.enter task'.jumps) := by
  unfold Machine.enter
  rw [hzero, hjumps]
  cases m.tape.isZero with
  | true =>
    cases task.jumps.partner? m.ip with
    | none => exact h.abort .failed (by rw [h.ip]; rfl)
    | some j => exact .running { h with ip := Lead.succ rfl }
  | false => exact proceed { h with loops := by simp [Stack.push, h.loops, h.ip] }

theorem leave (h : Coupled c m n) (hzero : n.tape.isZero = m.tape.isZero) :
    StepsAlike c m.leave n.leave := by
  have hloops := h.loops
  unfold Machine.leave Stack.pop
  cases hm : m.loops.items with
  | nil =>
    rw [hm] at hloops
    rw [hloops]
    exact h.abort .failed (by rw [h.ip]; rfl)
  | cons start rest =>
    rw [hm] at hloops
    rw [hloops, List.map_cons, hzero]
    cases m.tape.isZero with
    | true => exact proceed { h with loops := rfl }
    | false => exact .running { h with loops := rfl, ip := rfl }

/-- Coupled machines execute a byte alike, if a bracket finds the same answer on both tapes. -/
theorem execute (h : Coupled c m n) (htask : task.Displaced c.lead task') {byte : UInt8}
    (hip : m.ip < task.program.size)
    (hzero : Brackets.isBracket byte = true → n.tape.isZero = m.tape.isZero) :
    StepsAlike c (m.execute task byte) (n.execute task' byte) := by
  rcases execute_cases task byte m with ⟨hi, hx⟩ | ⟨hi, hx⟩ | ⟨rfl, hx⟩ | ⟨rfl, hx⟩ | ⟨hb, ho, hi, hx⟩
  · rw [hx, Machine.execute, hi]
    exact h.output
  · rw [hx, Machine.execute, hi, htask.eof]
    exact h.accept task.eof
  · rw [hx, Machine.execute, Instruction.ofByte?_eq_loop.mpr rfl]
    exact h.enter (hzero rfl) (by rw [h.ip, htask.jumps m.ip hip])
  · rw [hx, Machine.execute, Instruction.ofByte?_eq_endLoop.mpr rfl]
    exact h.leave (hzero rfl)
  · have hshift : n.execute task' byte =
        ({ n with tape := Machine.shifted byte n.tape } : Machine v).proceed := by
      rcases execute_cases task' byte n with ⟨ho', -⟩ | ⟨hi', -⟩ | ⟨rfl, -⟩ | ⟨rfl, -⟩ | ⟨-, -, -, hx'⟩
      · exact absurd ho' ho
      · exact absurd hi' hi
      · cases hb
      · cases hb
      · exact hx'
    rw [hx, hshift]
    exact proceed { h with tape := c.shifted h.tape byte }

theorem isSpent (h : Coupled c m n) (htask : task.Displaced c.lead task') :
    n.isSpent task'.limit = m.isSpent task.limit := by
  rw [htask.limit]
  cases task.limit with
  | none => rfl
  | some limit =>
    have hsteps := h.steps
    simp only [Machine.isSpent, Option.map_some, decide_eq_decide]
    omega

/-- The signal is looked at by both machines or by neither, or it is clear. -/
theorem isInterrupted (h : Coupled c m n) : n.isInterrupted = m.isInterrupted := by
  have hsteps := h.steps
  unfold Machine.isInterrupted
  rw [h.signal]
  by_cases hlead : c.lead.steps = 0
  · rw [hsteps, hlead, Nat.add_zero]
  · rw [h.quiet hlead]
    simp [Signal.isRaised]

/-- **Coupled machines stay in step.** -/
theorem step (h : Coupled c m n) (htask : task.Displaced c.lead task')
    (hzero : ∀ byte, m.due task = some byte → Brackets.isBracket byte = true →
      n.tape.isZero = m.tape.isZero) :
    StepsAlike c (m.step task) (n.step task') := by
  have hbyte : task'.program[n.ip]? = task.program[m.ip]? := by rw [h.ip, htask.program]
  have hcounted := h.counted
  rcases step_cases task m with ⟨hend, hs⟩ | ⟨hip, hspent, hs⟩ | ⟨hip, hspent, hraised, hs⟩ |
    ⟨byte, hdue, hs⟩
  · rw [hs, Machine.step, hbyte, hend]
    exact h.finish
  · have hn : n.isSpent task'.limit = true := by rw [h.isSpent htask, hspent]
    rw [hs, Machine.step, hbyte, Array.getElem?_eq_getElem hip]
    simp only [hn, if_true]
    exact h.abort .stepLimit (by rw [h.steps, h.ip]; rfl)
  · have hn : n.isSpent task'.limit = false := by rw [h.isSpent htask, hspent]
    have hlook : (n.steps + 1) % signalInterval = 0 ∧ n.signal.isRaised = true :=
      of_decide_eq_true (h.isInterrupted.trans hraised)
    rw [hs, Machine.step, hbyte, Array.getElem?_eq_getElem hip]
    simp only [hn, Bool.false_eq_true, if_false]
    rw [if_pos hlook]
    exact hcounted.abort .interrupted (by rw [h.steps, h.ip, Nat.add_right_comm]; rfl)
  · have hp := program_of_due hdue
    have hn : n.due task' = some byte := by
      rw [due, h.isSpent htask, h.isInterrupted, hbyte]
      exact hdue
    rw [hs, step_of_due hn]
    exact hcounted.execute htask (Array.getElem?_eq_some_iff.mp hp).1 (hzero byte hdue)

theorem start (h : Coupled c m n) : StepsAlike c m.start n.start := by
  unfold Machine.start
  rw [h.signal]
  cases m.signal with
  | clear | pending => exact .running h
  | raised reason => exact h.abort .interrupted rfl

section
variable (htask : task.Displaced c.lead task')
include htask

/-- **Coupled machines stop alike**, after the same number of steps, or both go on for ever, if every bracket on
the way finds the same answer on both tapes. -/
theorem run_along (h : Coupled c m n)
    (htests : ∀ visited k, Run task m visited k → TestsAlike c task k) (fuel : Nat) :
    Option.Rel (StopsAlike c) (Machine.run task fuel m) (Machine.run task' fuel n) := by
  induction fuel generalizing m n with
  | zero => exact .none
  | succ fuel ih =>
    have hstep := h.step htask (fun byte hdue hb => htests [] m (.nil m) byte hdue hb n.tape h.tape)
    rw [Machine.run, Machine.run]
    cases hm : m.step task with
    | running m' =>
      rw [hm] at hstep
      generalize n.step task' = q at hstep
      cases hstep with
      | running hnext => exact ih hnext (fun visited k hrun => htests (m :: visited) k (.cons hm hrun))
    | stopped m' reason fault =>
      rw [hm] at hstep
      generalize n.step task' = q at hstep
      cases hstep with
      | stopped hstop => exact .some hstop

/-- A signal that is raised at the start leaves nothing to be tested. -/
theorem launch_along (h : Coupled c m n)
    (htests : m.signal.isRaised = false → ∀ visited k, Run task m visited k → TestsAlike c task k) (fuel : Nat) :
    Option.Rel (StopsAlike c) (m.launch task fuel) (n.launch task' fuel) := by
  have hstart := h.start
  cases hs : m.signal.isRaised with
  | false =>
    rw [launch_eq hs, launch_eq (by rw [h.signal, hs])]
    exact h.run_along htask (htests hs) fuel
  | true =>
    obtain ⟨reason, hs⟩ := Signal.isRaised_iff.mp hs
    have hm : m.start = m.abort .interrupted (.caused .interrupted (.cancelled reason)) := by
      rw [Machine.start, hs]
    obtain ⟨told, habort, -⟩ := abort_eq m .interrupted (.caused .interrupted (.cancelled reason))
    rw [hm, habort] at hstart
    rw [Machine.launch, Machine.launch, hm, habort]
    generalize n.start = q at hstart
    cases hstart with
    | stopped hstop => exact .some hstop

end

section
variable (htest : ∀ {t u}, c.tape t u → u.isZero = t.isZero) (htask : task.Displaced c.lead task')
include htest htask

theorem run (h : Coupled c m n) (fuel : Nat) :
    Option.Rel (StopsAlike c) (Machine.run task fuel m) (Machine.run task' fuel n) :=
  h.run_along htask (fun _ _ _ _ _ _ _ hu => htest hu) fuel

theorem launch (h : Coupled c m n) (fuel : Nat) :
    Option.Rel (StopsAlike c) (m.launch task fuel) (n.launch task' fuel) :=
  h.launch_along htask (fun _ _ _ _ _ _ _ _ hu => htest hu) fuel

end

end Coupled

/-! ### Machines on the same streams -/

/-- Two machines have stopped alike, whatever their tapes. -/
structure Halt.SameButTape (h : Halt w) (k : Halt v) : Prop where
  result : k.result = h.result
  fault : k.fault = h.fault
  outbox : k.machine.outbox = h.machine.outbox
  input : k.machine.input = h.machine.input
  signal : k.machine.signal = h.machine.signal

theorem StopsAlike.sameButTape (hc : c.toStreams = .same) {h : Halt w} {k : Halt v} (hstop : StopsAlike c h k) :
    h.SameButTape k := by
  obtain ⟨streams, _⟩ := c
  obtain rfl : streams = .same := hc
  obtain ⟨hmachine, hreason, hfault⟩ := hstop
  refine ⟨?_, ?_, hmachine.outbox, hmachine.input, hmachine.signal⟩
  · rw [Halt.result, Halt.result, hmachine.steps, hmachine.read, hmachine.written, hreason]
    rfl
  · rw [hfault]
    show h.fault.map (·.displaced {}) = h.fault
    rw [funext Fault.displaced_none, Option.map_id']

/-- Machines that start on the same streams, on tapes that count as the same, stop alike on tapes that count as the
same, or both go on for ever. -/
theorem launch_same (hc : c.toStreams = .same) {t : Tape w} {u : Tape v} (htape : c.tape t u) {task : Task}
    {input : Input} {sink : Option Sink} {signal : Signal}
    (htests : signal.isRaised = false →
      ∀ visited k, Run task (fresh t input sink signal) visited k → TestsAlike c task k)
    {P : Tape w → Tape v → Prop} (hfinal : ∀ {t u}, c.tape t u → P t u) (fuel : Nat) :
    Option.Rel (fun h k => h.SameButTape k ∧ P h.machine.tape k.machine.tape)
      ((fresh t input sink signal).launch task fuel) ((fresh u input sink signal).launch task fuel) := by
  have hcoupled : Coupled c (fresh t input sink signal) (fresh u input sink signal) := by
    obtain ⟨streams, _⟩ := c
    obtain rfl : streams = .same := hc
    exact ⟨htape, rfl, rfl, rfl, fun hlead => absurd rfl hlead, rfl, rfl, rfl, rfl, rfl⟩
  have htask : task.Displaced c.lead task := by
    rw [hc]
    exact .refl task
  have hlaunch := hcoupled.launch_along htask htests fuel
  generalize (fresh t input sink signal).launch task fuel = p at hlaunch ⊢
  generalize (fresh u input sink signal).launch task fuel = q at hlaunch ⊢
  cases hlaunch with
  | none => exact .none
  | some hstop => exact .some ⟨hstop.sameButTape hc, hfinal hstop.machine.tape⟩

end Machine
end TapeMachine
