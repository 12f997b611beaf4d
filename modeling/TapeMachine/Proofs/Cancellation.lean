import TapeMachine.Proofs.Delivery

/-! Cancelled runs.

A machine's uncancelled twin is on the same streams, except that no call on them cancels anything, and its signal is
clear. Whatever a machine does except look at its signal, its twin does as well (`step_uncancelled`), so the two come
apart at one place only: where the signal is raised when it is looked at. It is looked at before every 4096th
instruction, and once raised it stays raised. -/
namespace TapeMachine

/-! ### Streams that cannot cancel -/

/-- The same source, none of whose calls cancels the turn. -/
def Source.uncancelled (s : Source) : Source := { s with cancelAt := 0 }

def Feed.uncancelled (f : Feed) : Feed := { f with source := f.source.uncancelled }

def Input.uncancelled : Input → Input
  | .absent => .absent
  | .plain source => .plain source.uncancelled
  | .single source => .single source.uncancelled
  | .buffered feed => .buffered feed.uncancelled

/-- The same sink, none of whose calls cancels the turn. -/
def Sink.uncancelled (s : Sink) : Sink := { s with cancelAt := 0 }

def Outbox.uncancelled (o : Outbox) : Outbox := { o with sink := o.sink.map Sink.uncancelled }

namespace Source

theorem serve_uncancelled (s : Source) (room : Nat) :
    s.uncancelled.serve room = { s.serve room with source := (s.serve room).source.uncancelled } := by
  unfold serve
  by_cases h : s.data.isEmpty = true
  · simp only [uncancelled, h, if_true]
    rfl
  · simp only [uncancelled, h]
    rfl

theorem read_uncancelled (s : Source) (room : Nat) :
    s.uncancelled.read room = { s.read room with source := (s.read room).source.uncancelled } := by
  have hidle : s.uncancelled.idle = s.idle := rfl
  unfold read
  rw [hidle]
  cases s.idle with
  | zero => exact serve_uncancelled s room
  | succ n => rfl

theorem readByte_uncancelled (s : Source) :
    s.uncancelled.readByte = (s.readByte.1, s.readByte.2.uncancelled) := by
  have hskip : s.uncancelled.skipIdle = s.skipIdle.uncancelled := rfl
  unfold readByte
  simp only [hskip, serve_uncancelled]
  cases (s.skipIdle.serve 1).bytes with
  | nil => rfl
  | cons b rest => rfl

theorem readOnce_uncancelled (s : Source) :
    s.uncancelled.readOnce = (s.readOnce.1, s.readOnce.2.uncancelled) := by
  unfold readOnce
  simp only [read_uncancelled]
  cases (s.read 1).bytes with
  | cons b rest => rfl
  | nil =>
    cases (s.read 1).ending with
    | none => rfl
    | some fault => rfl

end Source

namespace Feed

theorem fillWithin_uncancelled (n : Nat) (f : Feed) : fillWithin n f.uncancelled = (fillWithin n f).uncancelled := by
  induction n generalizing f with
  | zero => rfl
  | succ n ih =>
    have hsource : f.uncancelled.source = f.source.uncancelled := rfl
    have hbuffer : f.uncancelled.buffer = f.buffer := rfl
    simp only [fillWithin, hsource, hbuffer, Source.read_uncancelled]
    generalize f.source.read (capacity - f.buffer.length) = d
    cases d.ending with
    | some fault => rfl
    | none =>
      cases d.bytes with
      | nil => exact ih { f with source := d.source }
      | cons b rest => rfl

theorem readByte_uncancelled (f : Feed) : f.uncancelled.readByte = (f.readByte.1, f.readByte.2.uncancelled) := by
  -- Filling comes first or not, for both alike.
  have hready : (if f.uncancelled.buffer.isEmpty && f.uncancelled.fault.isNone then f.uncancelled.fill
      else f.uncancelled) = (if f.buffer.isEmpty && f.fault.isNone then f.fill else f).uncancelled := by
    rw [apply_ite Feed.uncancelled, fill, fill, ← fillWithin_uncancelled]
    rfl
  unfold readByte
  simp only [hready]
  generalize (if f.buffer.isEmpty && f.fault.isNone then f.fill else f) = g
  have hbuffer : g.uncancelled.buffer = g.buffer := rfl
  rw [hbuffer]
  cases g.buffer with
  | nil => rfl
  | cons b rest => rfl

end Feed

namespace Input

theorem readByte_uncancelled (i : Input) : i.uncancelled.readByte = (i.readByte.1, i.readByte.2.uncancelled) := by
  cases i with
  | absent => rfl
  | plain s => simp only [uncancelled, readByte, Source.readByte_uncancelled]
  | single s => simp only [uncancelled, readByte, Source.readOnce_uncancelled]
  | buffered f => simp only [uncancelled, readByte, Feed.readByte_uncancelled]

theorem hasCancelledSince_uncancelled (i : Input) (calls : Nat) :
    i.uncancelled.hasCancelledSince calls = false := by
  cases i with
  | absent => rfl
  | _ => simp [uncancelled, hasCancelledSince, source?, Source.hasCancelledSince, Source.uncancelled, Feed.uncancelled]

end Input

namespace Outbox

theorem hasCancelledSince_uncancelled (o : Outbox) (calls : Nat) :
    o.uncancelled.hasCancelledSince calls = false := by
  cases hs : o.sink with
  | none => simp [uncancelled, hasCancelledSince, hs]
  | some s => simp [uncancelled, hasCancelledSince, hs, Sink.hasCancelledSince, Sink.uncancelled]

theorem deliver_uncancelled (o : Outbox) : o.uncancelled.deliver = o.deliver.uncancelled := by
  obtain ⟨sink, buffer, failure⟩ := o
  cases sink with
  | none => rfl
  | some s =>
    have haccepts : s.uncancelled.accepts buffer.size = s.accepts buffer.size := rfl
    simp only [uncancelled, deliver, Option.map_some, haccepts]
    by_cases h : s.accepts buffer.size < buffer.size
    · simp only [h, if_true]
      rfl
    · simp only [h, if_false]
      rfl

theorem flush_uncancelled (o : Outbox) : o.uncancelled.flush = o.flush.uncancelled := by
  unfold flush
  rw [apply_ite uncancelled, deliver_uncancelled]
  rfl

theorem put_uncancelled (o : Outbox) (b : UInt8) : o.uncancelled.put b = (o.put b).uncancelled := by
  have hroom : (if capacity ≤ o.uncancelled.buffer.size then o.uncancelled.flush else o.uncancelled) =
      (if capacity ≤ o.buffer.size then o.flush else o).uncancelled := by
    rw [apply_ite uncancelled, flush_uncancelled]
    rfl
  unfold put
  simp only [hroom]
  generalize (if capacity ≤ o.buffer.size then o.flush else o) = p
  rw [apply_ite uncancelled, apply_ite uncancelled]
  rfl

end Outbox

/-! ### Machines that cannot be cancelled -/

namespace Machine
variable {w : Nat} {task : Task}

/-- The machine's uncancelled twin. -/
def uncancelled (m : Machine w) : Machine w :=
  { m with input := m.input.uncancelled, outbox := m.outbox.uncancelled, signal := .clear }

def Halt.uncancelled (h : Halt w) : Halt w := { h with machine := h.machine.uncancelled }

end Machine

def Progress.uncancelled {w : Nat} : Progress w → Progress w
  | .running m => .running m.uncancelled
  | .stopped m reason fault => .stopped m.uncancelled reason fault

namespace Machine
variable {w : Nat} {task : Task}

theorem send_uncancelled (m : Machine w) {act : Outbox → Outbox}
    (hact : act m.outbox.uncancelled = (act m.outbox).uncancelled) :
    m.uncancelled.send act = (m.send act).uncancelled := by
  have hbit := (act m.outbox).hasCancelledSince_uncancelled m.uncancelled.outbox.calls
  rw [← hact] at hbit
  simp only [send, uncancelled] at hbit ⊢
  rw [hbit, hact]
  rfl

theorem flush_uncancelled (m : Machine w) : m.uncancelled.flush = m.flush.uncancelled :=
  m.send_uncancelled m.outbox.flush_uncancelled

theorem take_uncancelled (m : Machine w) : m.uncancelled.take = (m.take.1, m.take.2.uncancelled) := by
  have hbit := m.input.readByte.2.hasCancelledSince_uncancelled m.uncancelled.input.calls
  simp only [take, uncancelled, Input.readByte_uncancelled] at hbit ⊢
  rw [hbit]
  rfl

theorem abort_uncancelled (m : Machine w) (reason : StopReason) (fault : Fault) :
    m.uncancelled.abort reason fault = (m.abort reason fault).uncancelled := by
  have hfailure : m.flush.uncancelled.outbox.failure = m.flush.outbox.failure := rfl
  unfold abort
  simp only [flush_uncancelled, hfailure]
  cases m.flush.outbox.failure with
  | none => rfl
  | some text => rfl

theorem finish_uncancelled (m : Machine w) : m.uncancelled.finish = m.finish.uncancelled := by
  have hfailure : m.flush.uncancelled.outbox.failure = m.flush.outbox.failure := rfl
  unfold finish
  simp only [flush_uncancelled, hfailure]
  cases m.flush.outbox.failure with
  | none => rfl
  | some text => rfl

theorem output_uncancelled (m : Machine w) : m.uncancelled.output = m.output.uncancelled := by
  have hsend : m.uncancelled.send (·.put m.tape.byte) = (m.send (·.put m.tape.byte)).uncancelled :=
    m.send_uncancelled (m.outbox.put_uncancelled _)
  have hbyte : m.uncancelled.tape.byte = m.tape.byte := rfl
  unfold output
  simp only [hbyte, hsend]
  generalize m.send (·.put m.tape.byte) = n
  have hfailure : n.uncancelled.outbox.failure = n.outbox.failure := rfl
  rw [hfailure]
  cases n.outbox.failure with
  | none => rfl
  | some text => exact n.abort_uncancelled _ _

theorem accept_uncancelled (m : Machine w) (eof : EofPolicy) :
    m.uncancelled.accept eof = (m.accept eof).uncancelled := by
  unfold accept
  simp only [flush_uncancelled]
  generalize m.flush = n
  have hfailure : n.uncancelled.outbox.failure = n.outbox.failure := rfl
  rw [hfailure]
  cases n.outbox.failure with
  | some text => exact n.abort_uncancelled _ _
  | none =>
    rw [take_uncancelled]
    rcases n.take with ⟨answer, after⟩
    cases answer with
    | ok b => rfl
    | error fault =>
      cases hend : fault.isA .endOfInput with
      | true =>
        simp only [hend, if_true]
        rfl
      | false =>
        simp only [hend, Bool.false_eq_true, if_false]
        exact after.abort_uncancelled _ _

theorem enter_uncancelled (m : Machine w) (jumps : JumpTable) :
    m.uncancelled.enter jumps = (m.enter jumps).uncancelled := by
  have htape : m.uncancelled.tape = m.tape := rfl
  have hip : m.uncancelled.ip = m.ip := rfl
  unfold enter
  simp only [htape, hip]
  cases m.tape.isZero with
  | false => rfl
  | true =>
    cases jumps.partner? m.ip with
    | none => exact m.abort_uncancelled _ _
    | some j => rfl

theorem leave_uncancelled (m : Machine w) : m.uncancelled.leave = m.leave.uncancelled := by
  have hloops : m.uncancelled.loops = m.loops := rfl
  have htape : m.uncancelled.tape = m.tape := rfl
  unfold leave
  simp only [hloops, htape]
  cases m.loops.pop with
  | mk top loops =>
    cases top with
    | none => exact m.abort_uncancelled _ _
    | some start =>
      cases m.tape.isZero with
      | true => rfl
      | false => rfl

theorem execute_uncancelled (m : Machine w) (byte : UInt8) :
    m.uncancelled.execute task byte = (m.execute task byte).uncancelled := by
  unfold execute
  cases Instruction.ofByte? byte with
  | none => rfl
  | some i =>
    cases i with
    | output => exact m.output_uncancelled
    | input => exact m.accept_uncancelled _
    | loop => exact m.enter_uncancelled _
    | endLoop => exact m.leave_uncancelled
    | _ => rfl

theorem not_interrupted_uncancelled (m : Machine w) : m.uncancelled.isInterrupted = false := by
  simp [isInterrupted, uncancelled, Signal.isRaised]

/-- What is due for a machine is due for its twin. -/
theorem due_uncancelled {m : Machine w} {byte : UInt8} (h : m.due task = some byte) :
    m.uncancelled.due task = some byte := by
  have hgo : ¬(m.isSpent task.limit || m.isInterrupted) = true := by
    intro hstop
    rw [due, if_pos hstop] at h
    cases h
  rw [Bool.or_eq_true, not_or, Bool.not_eq_true, Bool.not_eq_true] at hgo
  have hspent : m.uncancelled.isSpent task.limit = false := hgo.1
  rw [due, hspent, not_interrupted_uncancelled]
  exact (program_of_due h : task.program[m.ip]? = some byte)

/-- Unless the signal stops a machine, it does what its twin does. -/
theorem step_uncancelled {m : Machine w} (h : ∀ m' fault, m.step task ≠ .stopped m' .interrupted fault) :
    m.uncancelled.step task = (m.step task).uncancelled := by
  have hip : m.uncancelled.ip = m.ip := rfl
  rcases step_cases task m with ⟨hend, hs⟩ | ⟨hin, hlimit, hs⟩ | ⟨-, -, -, hs⟩ | ⟨byte, hdue, hs⟩
  · rw [hs, ← finish_uncancelled, step, hip, hend]
  · have hspent : m.uncancelled.isSpent task.limit = true := hlimit
    rw [hs, ← abort_uncancelled]
    simp only [step, hip, Array.getElem?_eq_getElem hin, hspent, if_true]
    rfl
  · obtain ⟨told, habort, -⟩ := abort_eq m.counted .interrupted
      (.caused .interrupted (.afterSteps (m.steps + 1) m.ip))
    exact absurd (hs.trans habort) (h _ _)
  · rw [hs, ← execute_uncancelled, step_of_due (due_uncancelled hdue)]
    rfl

/-- A run is one of the twin as well. -/
theorem Run.uncancelled {m last : Machine w} {visited : List (Machine w)} (h : Run task m visited last) :
    Run task m.uncancelled (visited.map Machine.uncancelled) last.uncancelled := by
  refine h.map Machine.uncancelled fun n _ n' hstep => ?_
  rw [step_uncancelled (fun _ _ hstop => by cases hstep.symm.trans hstop), hstep]
  rfl

/-- A run that is not stopped by the signal halts as that of the twin. -/
theorem halts_uncancelled {m last : Machine w} {visited : List (Machine w)} {h : Halt w}
    (hrun : Run task m visited last) (hstop : last.step task = .stopped h.machine h.reason h.fault)
    (hreason : h.reason ≠ .interrupted) : Halts task m.uncancelled h.uncancelled := by
  refine halts_iff.mpr ⟨_, .stopped rfl hrun.uncancelled ?_⟩
  rw [step_uncancelled (fun _ _ hsignal => hreason (Progress.stopped.inj (hstop.symm.trans hsignal)).2.1), hstop]
  rfl

/-! ### The signal -/

theorem isInterrupted_iff {m : Machine w} :
    m.isInterrupted = true ↔ signalInterval ∣ m.steps + 1 ∧ m.signal.isRaised = true := by
  rw [isInterrupted, decide_eq_true_iff, Nat.dvd_iff_mod_eq_zero]

/-- What an instruction does to the signal: it goes by, and the calls that it makes may cancel. -/
theorem signal_of_due {m : Machine w} (hdue : m.due task ≠ none) :
    ∃ now, (m.step task).machine.signal = m.signal.advance.cancelIf now := by
  -- Sending, taking and flushing cancel at most.
  have hcounted : ∃ now, m.counted.signal = m.signal.advance.cancelIf now := ⟨false, (Signal.cancelIf_false _).symm⟩
  have hsent {n : Machine w} (act : Outbox → Outbox) (h : ∃ now, n.signal = m.signal.advance.cancelIf now) :
      ∃ now, (n.send act).signal = m.signal.advance.cancelIf now := by
    obtain ⟨now, h⟩ := h
    exact ⟨_, (congrArg (Signal.cancelIf _) h).trans (Signal.cancelIf_cancelIf ..)⟩
  have htaken : ∃ now, m.counted.flush.take.2.signal = m.signal.advance.cancelIf now := by
    obtain ⟨now, h⟩ := hsent Outbox.flush hcounted
    exact ⟨_, (congrArg (Signal.cancelIf _) h).trans (Signal.cancelIf_cancelIf ..)⟩
  cases hstep : m.step task with
  | running m' =>
    show ∃ now, m'.signal = _
    cases advances_of_running hstep with
    | write => exact hsent (·.put m.tape.byte) hcounted
    | read => exact htaken
    | ended => exact htaken
    | _ => exact hcounted
  | stopped m' reason fault =>
    show ∃ now, m'.signal = _
    obtain ⟨byte, hbyte⟩ := Option.ne_none_iff_exists'.mp hdue
    rcases stop_cases hstep with ⟨hend, -⟩ | ⟨n, given, hgive, habort⟩
    · cases hend.symm.trans (program_of_due hbyte)
    · rw [(machine_of_abort habort).1]
      apply hsent
      cases hgive with
      | spent _ hspent =>
        rw [due, hspent] at hbyte
        cases hbyte
      | writing => exact hsent _ hcounted
      | flushing => exact hsent _ hcounted
      | reading => exact htaken
      | _ => exact hcounted

theorem signal_of_running {m m' : Machine w} (hstep : m.step task = .running m') :
    m.due task ≠ none ∧ ∃ now, m'.signal = m.signal.advance.cancelIf now := by
  obtain ⟨byte, hbyte, -⟩ := due_of_running hstep
  have hdue : m.due task ≠ none := by
    rw [hbyte]
    exact Option.some_ne_none byte
  have hsignal := signal_of_due hdue
  rw [hstep] at hsignal
  exact ⟨hdue, hsignal⟩

/-- A raised signal stays raised. -/
theorem raised_of_running {m m' : Machine w} (h : m.signal.isRaised = true) (hstep : m.step task = .running m') :
    m'.signal.isRaised = true := by
  obtain ⟨-, now, hsignal⟩ := signal_of_running hstep
  rw [hsignal]
  exact Signal.isRaised_cancelIf (Signal.isRaised_advance h) now

theorem Run.raised {m last : Machine w} {visited : List (Machine w)} (hrun : Run task m visited last)
    (h : m.signal.isRaised = true) : last.signal.isRaised = true :=
  hrun.invariant (P := fun _ n => n.signal.isRaised = true) h (fun _ _ _ hn hs => raised_of_running hn hs)

/-- The run is cancelled during instruction number `k`, counted from one: by a call that the instruction makes, or
from outside. -/
def CancelledDuring (task : Task) (m : Machine w) (k : Nat) : Prop :=
  ∃ visited last, Run task m visited last ∧ visited.length + 1 = k ∧ last.signal.isRaised = false ∧
    last.due task ≠ none ∧ (last.step task).machine.signal.isRaised = true

/-- From that instruction on the signal is raised, and before it is not. -/
theorem CancelledDuring.raised_iff {m last : Machine w} {visited : List (Machine w)} {k : Nat}
    (h : CancelledDuring task m k) (hrun : Run task m visited last) :
    last.signal.isRaised = true ↔ k ≤ visited.length := by
  obtain ⟨before, mid, hbefore, rfl, hclear, -, hraised⟩ := h
  by_cases hle : visited.length ≤ before.length
  · obtain ⟨later, -, hlater⟩ := hrun.extends hbefore hle
    constructor
    · intro hlast
      cases hclear.symm.trans (hlater.raised hlast)
    · omega
  · obtain ⟨later, rfl, hlater⟩ := hbefore.extends hrun (by omega)
    cases hlater with
    | nil =>
      rw [List.append_nil] at hle
      exact absurd (Nat.le_refl _) hle
    | cons hstep hrest =>
      rw [hstep] at hraised
      exact ⟨fun _ => by omega, fun _ => hrest.raised hraised⟩

/-- A run whose signal is pending for the instruction after `left` others, and that gets to this one, is cancelled
during it, or by a call before. -/
theorem cancelledDuring_of_pending {m last : Machine w} {visited : List (Machine w)} {left : Nat} {reason : String}
    (h : m.signal = .pending left reason) (hrun : Run task m visited last) (hlen : visited.length = left)
    (hdue : last.due task ≠ none) : ∃ k, k ≤ left + 1 ∧ CancelledDuring task m k := by
  have hquiet : m.signal.isRaised = false := by rw [h]; rfl
  induction hrun generalizing left with
  | nil m =>
    obtain rfl : 0 = left := hlen
    obtain ⟨now, hsignal⟩ := signal_of_due hdue
    refine ⟨1, Nat.le_refl 1, [], m, .nil m, rfl, hquiet, hdue, ?_⟩
    rw [hsignal, h]
    rfl
  | @cons m m' last rest hstep hrest ih =>
    obtain ⟨left, rfl⟩ : ∃ fewer, left = fewer + 1 := ⟨rest.length, hlen.symm⟩
    obtain ⟨hfirst, now, hsignal⟩ := signal_of_running hstep
    rw [h] at hsignal
    cases now with
    | false =>
      have hnext : m'.signal = .pending left reason := hsignal
      obtain ⟨k, hle, seen, mid, hrun, rfl, hmid⟩ := ih hnext (Nat.succ.inj hlen) hdue (by rw [hnext]; rfl)
      exact ⟨seen.length + 2, by omega, m :: seen, mid, .cons hstep hrun, rfl, hmid⟩
    | true =>
      refine ⟨1, by omega, [], m, .nil m, rfl, hquiet, hfirst, ?_⟩
      rw [hstep]
      exact congrArg Signal.isRaised hsignal

/-- `n` is the first instruction after number `k` before which the signal is looked at. -/
structure IsNextLook (k n : Nat) : Prop where
  later : k < n
  looks : signalInterval ∣ n
  least : ∀ j, k < j → signalInterval ∣ j → n ≤ j

/-- Where the signal stops a machine, its twin has an instruction to execute. -/
theorem interrupted_of_stopped {m m' : Machine w} {fault : Option Fault}
    (h : m.step task = .stopped m' .interrupted fault) :
    m.uncancelled.due task ≠ none ∧ m.isInterrupted = true ∧
      m.counted.abort .interrupted (.caused .interrupted (.afterSteps (m.steps + 1) m.ip)) =
        .stopped m' .interrupted fault := by
  rcases stop_cases h with ⟨-, hf⟩ | ⟨n, given, hgive, habort⟩
  · rcases finish_cases m with ⟨-, hm⟩ | ⟨text, -, hm⟩ <;> rw [hm] at hf <;>
      cases (Progress.stopped.inj hf).2.1
  · cases hgive with
    | interrupted hip hspent hraised =>
      refine ⟨?_, hraised, habort⟩
      have hspent' : m.uncancelled.isSpent task.limit = false := hspent
      rw [due, hspent', not_interrupted_uncancelled]
      exact fun hnone => absurd hip (Nat.not_lt.mpr (Array.getElem?_eq_none_iff.mp hnone))

/-- A run that is cancelled during instruction `k` stops before it executes instruction `n`, where the signal is next
looked at: right before it, if the signal is what stops it. -/
theorem CancelledDuring.stops {m : Machine w} {k n : Nat} (h : CancelledDuring task m k) (hlook : IsNextLook k n)
    (hstart : m.steps = 0) :
    ∃ visited last, ∃ halt : Halt w, Run task m visited last ∧ visited.length < n ∧
      last.step task = .stopped halt.machine halt.reason halt.fault ∧
      (halt.reason = .interrupted → visited.length + 1 = n) ∧
      (halt.reason ≠ .interrupted → halt.result.steps < n) := by
  have hlater := hlook.later
  have hsteps {visited : List (Machine w)} {last : Machine w} (hrun : Run task m visited last) :
      last.steps = visited.length := by
    have := hrun.steps_eq
    omega
  -- Just before instruction `n` the signal is looked at and found raised, so that nothing is due.
  have hidle {visited : List (Machine w)} {last : Machine w} (hrun : Run task m visited last)
      (hlen : visited.length + 1 = n) : last.due task = none := by
    have hraised : last.isInterrupted = true := by
      rw [isInterrupted_iff, hsteps hrun, hlen, h.raised_iff hrun]
      exact ⟨hlook.looks, by omega⟩
    rw [due, hraised, Bool.or_true]
    rfl
  obtain ⟨visited, last, halt, hrun, hlen, hstop⟩ : ∃ visited last, ∃ halt : Halt w,
      Run task m visited last ∧ visited.length < n ∧
        last.step task = .stopped halt.machine halt.reason halt.fault := by
    rcases run_or_stops task m (n - 1) with ⟨visited, last, hrun, hlen⟩ | ⟨visited, last, halt, hrun, hlen, hstop⟩
    · cases hstep : last.step task with
      | running m' =>
        obtain ⟨byte, hdue, -⟩ := due_of_running hstep
        cases hdue.symm.trans (hidle hrun (by omega))
      | stopped m' reason fault => exact ⟨visited, last, ⟨m', reason, fault⟩, hrun, by omega, hstep⟩
    · exact ⟨visited, last, halt, hrun, by omega, hstop⟩
  refine ⟨visited, last, halt, hrun, hlen, hstop, fun hreason => ?_, fun hreason => ?_⟩
  · rw [hreason] at hstop
    obtain ⟨-, hraised, -⟩ := interrupted_of_stopped hstop
    rw [isInterrupted_iff, hsteps hrun, h.raised_iff hrun] at hraised
    have hleast := hlook.least _ (by omega) hraised.1
    omega
  · show halt.machine.steps < n
    have hlast := hsteps hrun
    by_cases hnear : visited.length + 1 = n
    · rcases steps_of_stopped hstop with ⟨hdue | hsignal, -⟩ | ⟨-, -, hcount⟩
      · exact absurd (hidle hrun hnear) hdue
      · exact absurd hsignal hreason
      · omega
    · rcases steps_of_stopped hstop with ⟨-, hcount⟩ | ⟨-, -, hcount⟩ <;> omega

/-- **A cancelled run is a prefix of the uncancelled one.** Cancelled before it starts, a run stops without an
instruction, a read or a write. One that is to be cancelled during an instruction is, if it gets there, unless a call
cancels it before. Cancelled during instruction number `k`, it stops as its twin does if that happens before
instruction number `n`, the next one at which the signal is looked at; if not, it is interrupted just before
instruction number `n`, where all that is left is what the twin has there. -/
theorem cancelled_is_prefix (task : Task) (tape : Tape w) (input : Input) (sink : Option Sink) (signal : Signal)
    (hsink : ∀ s, sink = some s → s.AcceptsAll) :
    let m := fresh tape input sink signal
    (∀ reason, signal = .raised reason → ∃ h, Halts task m h ∧ h.result = { stop := .interrupted } ∧
      h.fault = some (.caused .interrupted (.cancelled reason)) ∧ h.machine.tape = tape ∧
      h.machine.input = input ∧ h.machine.outbox.sink = sink) ∧
    (∀ left reason visited last, signal = .pending left reason → Run task m visited last → visited.length = left →
      last.due task ≠ none → ∃ k, k ≤ left + 1 ∧ CancelledDuring task m k) ∧
    ∀ k n, CancelledDuring task m k → IsNextLook k n →
      (∀ twin, Halts task m.uncancelled twin → twin.result.steps < n →
        ∃ h, Halts task m h ∧ h.uncancelled = twin) ∧
      ((¬∃ twin, Halts task m.uncancelled twin ∧ twin.result.steps < n) →
        ∃ h visited last, HaltsAfter task m visited h ∧ visited.length + 1 = n ∧
          Run task m.uncancelled (visited.map uncancelled) last ∧
          h.result.stop = .interrupted ∧ h.fault = some (.caused .interrupted (.afterSteps n last.ip)) ∧
          h.uncancelled.LeftAt task (sink.map Sink.uncancelled) (visited.map uncancelled) last) := by
  intro m
  refine ⟨fun reason hraised => ?_, fun _ _ _ _ hpending => cancelledDuring_of_pending hpending,
    fun k n hcancel hlook => ?_⟩
  · have habort := abort_of_carries (m := m) (.start hsink) .interrupted (.caused .interrupted (.cancelled reason))
    exact ⟨⟨m.flush, .interrupted, _⟩, halts_iff.mpr ⟨[], .cancelled hraised habort⟩, rfl, rfl, rfl, rfl, rfl⟩
  · obtain ⟨visited, last, h, hrun, hlen, hstop, hnext, hbefore⟩ := hcancel.stops hlook rfl
    have hquiet : m.signal.isRaised = false := by
      apply Bool.eq_false_iff.mpr
      intro hraised
      have hzero := (hcancel.raised_iff (.nil m)).mp hraised
      obtain ⟨before, mid, -, rfl, -⟩ := hcancel
      cases hzero
    have hhalts : HaltsAfter task m visited h := .stopped hquiet hrun hstop
    by_cases hreason : h.reason = .interrupted
    · obtain ⟨hdue, -, habort⟩ := interrupted_of_stopped (hreason ▸ hstop)
      -- The twin goes on with instruction `n`.
      refine ⟨fun twin htwin hsteps => ?_, fun _ => ?_⟩
      · have hlate := hrun.uncancelled.steps_lt_of_halts hdue rfl htwin
        have hcount : last.uncancelled.steps = visited.length := hrun.steps_eq.trans (Nat.zero_add _)
        have hnear := hnext hreason
        omega
      · have hcount : last.steps = visited.length := hrun.steps_eq.trans (Nat.zero_add _)
        obtain ⟨hcarries, -⟩ := carries_run hsink hrun
        have htold := abort_of_carries (m := last.counted) hcarries .interrupted
          (.caused .interrupted (.afterSteps (last.steps + 1) last.ip))
        obtain ⟨hmachine, -, hfault⟩ := Progress.stopped.inj (htold.symm.trans habort)
        refine ⟨h, visited, last.uncancelled, hhalts, hnext hreason, hrun.uncancelled, hreason, ?_, ?_⟩
        · rw [← hfault, hcount, hnext hreason]
          rfl
        · refine hrun.uncancelled.leftAt (fun s hs => ?_) (.inr ?_)
          · obtain ⟨s, hsome, rfl⟩ := Option.map_eq_some_iff.mp hs
            exact ⟨(hsink s hsome).replies, (hsink s hsome).limit⟩
          · rw [Halt.uncancelled, ← hmachine, ← flush_uncancelled]
            rfl
    · refine ⟨fun twin htwin _ => ⟨h, halts_iff.mpr ⟨visited, hhalts⟩,
        (halts_uncancelled hrun hstop hreason).unique htwin⟩, fun hnone => ?_⟩
      exact absurd ⟨h.uncancelled, halts_uncancelled hrun hstop hreason, hbefore hreason⟩ hnone

/-- A program that reads once and then goes round an empty loop for ever. -/
def readAndSpin : Task := { program := #[0x2c, 0x5b, 0x5d], jumps := ⟨#[none, some 2, some 1], 1⟩ }

/-- A machine that goes round that loop. -/
def spinning (steps : Nat) : Machine 8 :=
  { tape := ⟨#[0x41], 0⟩, input := .plain { data := [], calls := 1, served := 1 }, outbox := {}
    ip := 1, steps, read := 1 }

theorem run_spinning (steps rounds : Nat) :
    ∃ visited, Run readAndSpin (spinning steps) visited (spinning (steps + 2 * rounds)) ∧
      visited.length = 2 * rounds := by
  have hdue {n : Machine 8} (hclear : n.signal = .clear) : n.due readAndSpin = readAndSpin.program[n.ip]? := by
    simp [due, isSpent, isInterrupted, readAndSpin, hclear, Signal.isRaised]
  apply Run.rounds
  intro k
  have henter : (spinning k).step readAndSpin =
      .running { spinning (k + 1) with ip := 2, loops := ⟨[1]⟩ } :=
    (Advances.enter ((hdue rfl).trans rfl) rfl).running
  have hback : Machine.step readAndSpin { spinning (k + 1) with ip := 2, loops := ⟨[1]⟩ } =
      .running (spinning (k + 2)) :=
    (Advances.back ((hdue rfl).trans rfl) rfl rfl).running
  exact ⟨_, .cons henter (.cons hback (.nil _)), rfl⟩

/-- A read that cancels, or is cancelled from outside, is followed by the loop up to the next look at the signal, before
instruction 4096. -/
theorem cancelled_is_prefix_spinning :
    (∃ h visited, HaltsAfter readAndSpin
        (fresh ⟨#[(0 : BitVec 8)], 0⟩ (.plain { data := [0x41], cancelAt := 1 }) none .clear) visited h ∧
      visited.length = 4095 ∧ h.result.stop = .interrupted) ∧
    ∃ h visited, HaltsAfter readAndSpin
        (fresh ⟨#[(0 : BitVec 8)], 0⟩ (.plain { data := [0x41] }) none (.pending 0 "context canceled")) visited h ∧
      visited.length = 4095 ∧ h.result.stop = .interrupted := by
  have hstops {cancelAt : Nat} {signal : Signal} (hcancel : CancelledDuring readAndSpin
        (fresh ⟨#[(0 : BitVec 8)], 0⟩ (.plain { data := [0x41], cancelAt }) none signal) 1) :
      ∃ h visited, HaltsAfter readAndSpin
          (fresh ⟨#[(0 : BitVec 8)], 0⟩ (.plain { data := [0x41], cancelAt }) none signal) visited h ∧
        visited.length = 4095 ∧ h.result.stop = .interrupted := by
    obtain ⟨-, -, hcancelled⟩ := cancelled_is_prefix readAndSpin ⟨#[(0 : BitVec 8)], 0⟩
      (.plain { data := [0x41], cancelAt }) none signal (fun s hs => by cases hs)
    have hlook : IsNextLook 1 4096 :=
      ⟨by decide, by decide, fun j hj hdvd => Nat.le_of_dvd (by omega) hdvd⟩
    obtain ⟨-, hinterrupted⟩ := hcancelled 1 4096 hcancel hlook
    obtain ⟨spins, hspins, hlen⟩ := run_spinning 1 2047
    obtain ⟨h, visited, last, hhalts, hlen, -, hstop, -⟩ := hinterrupted fun hex => by
      obtain ⟨twin, htwin, hsteps⟩ := hex
      have hlate := (Run.cons rfl hspins).steps_lt_of_halts (by decide) rfl htwin
      exact absurd hsteps (Nat.not_lt.mpr hlate)
    exact ⟨h, visited, hhalts, Nat.succ.inj hlen, hstop⟩
  refine ⟨hstops ⟨[], _, .nil _, rfl, rfl, by decide, by decide⟩, hstops ?_⟩
  obtain ⟨-, hpending, -⟩ := cancelled_is_prefix readAndSpin ⟨#[(0 : BitVec 8)], 0⟩ (.plain { data := [0x41] }) none
    (.pending 0 "context canceled") (fun s hs => by cases hs)
  obtain ⟨k, hle, before, mid, hbefore, rfl, hmid⟩ := hpending 0 "context canceled" [] _ rfl (.nil _) rfl (by decide)
  obtain rfl : before = [] := List.length_eq_zero_iff.mp (by omega)
  exact ⟨[], mid, hbefore, rfl, hmid⟩

end Machine
end TapeMachine
