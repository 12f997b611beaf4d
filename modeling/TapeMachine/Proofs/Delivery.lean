import TapeMachine.Proofs.Run

/-! What reaches the sink.

An outbox in front of a sink that accepts everything carries exactly the bytes put into it: those that the
sink has taken, then those in the buffer (`Outbox.Carries`). Putting a byte adds it at the end and flushing
moves the buffer into the sink, in calls that offer at least one byte and never more than the buffer holds.
A machine flushes before it reads and before it stops, whatever it stops for, so at each of these moments
the sink has taken what the output instructions executed so far have written. -/
namespace TapeMachine

/-- A sink that accepts everything. -/
structure Sink.AcceptsAll (s : Sink) : Prop where
  replies : s.replies = []
  limit : s.limit = none

theorem Sink.AcceptsAll.accepts {s : Sink} (h : s.AcceptsAll) (n : Nat) : s.accepts n = n := by
  rw [Sink.accepts, h.replies, h.limit]

theorem Sink.AcceptsAll.reports {s : Sink} (h : s.AcceptsAll) (n : Nat) : s.reports n = none := by
  simp [Sink.reports, h.replies, h.accepts]

/-- A sink that was `s₀` has since taken `sent`: every call offered between one byte and a buffer full, and
all of it was accepted, without a failure. -/
structure Sink.Took (sent : List UInt8) (s₀ s : Sink) : Prop where
  acceptsAll : s.AcceptsAll
  cancelAt : s.cancelAt = s₀.cancelAt
  delivered : s.delivered.toList = s₀.delivered.toList ++ sent
  failures : s.failures = s₀.failures
  writes : ∃ calls, s.writes.toList = s₀.writes.toList ++ calls ∧
    ∀ call ∈ calls, 1 ≤ call.1 ∧ call.1 ≤ 4096 ∧ call.2 = call.1

theorem Sink.Took.refl {s : Sink} (h : s.AcceptsAll) : s.Took [] s :=
  ⟨h, rfl, (List.append_nil _).symm, rfl, [], (List.append_nil _).symm, fun _ hc => by cases hc⟩

/-- A call that offers a buffer of bytes is accepted whole. -/
theorem Sink.Took.write {s₀ s : Sink} {sent : List UInt8} (h : Sink.Took sent s₀ s)
    (bytes : Array UInt8) (hne : bytes ≠ #[]) (hsize : bytes.size ≤ 4096) :
    s.accepts bytes.size = bytes.size ∧ (s.write bytes).1 = none ∧
      Sink.Took (sent ++ bytes.toList) s₀ (s.write bytes).2 := by
  have haccepts := h.acceptsAll.accepts bytes.size
  have hreports := h.acceptsAll.reports bytes.size
  obtain ⟨calls, hcalls, hsizes⟩ := h.writes
  have hpos : 0 < bytes.size := Array.size_pos_iff.mpr hne
  refine ⟨haccepts, hreports, ⟨?_, h.acceptsAll.limit⟩, h.cancelAt, ?_, ?_,
    calls ++ [(bytes.size, bytes.size)], ?_, ?_⟩
  · simp [Sink.write, h.acceptsAll.replies]
  · simp [Sink.write, haccepts, h.delivered]
  · simp [Sink.write, hreports, h.failures]
  · simp [Sink.write, haccepts, hcalls]
  · intro call hcall
    rcases List.mem_append.mp hcall with hcall | hcall
    · exact hsizes call hcall
    · rw [List.mem_singleton.mp hcall]
      exact ⟨hpos, hsize, rfl⟩

namespace Outbox

/-- The outbox of the sink `sink₀`, which accepts everything, after `out` was put into it. -/
structure Carries (sink₀ : Option Sink) (out : List UInt8) (o : Outbox) : Prop where
  healthy : o.failure = none
  room : o.buffer.size ≤ capacity
  taken : ∃ sent, out = sent ++ o.buffer.toList ∧ Option.Rel (Sink.Took sent) sink₀ o.sink

namespace Carries
variable {sink₀ : Option Sink} {out : List UInt8} {o : Outbox}

theorem start (h : ∀ s, sink₀ = some s → s.AcceptsAll) : Carries sink₀ [] { sink := sink₀ } := by
  refine ⟨rfl, Nat.zero_le _, [], rfl, ?_⟩
  cases sink₀ with
  | none => exact .none
  | some s => exact .some (.refl (h s rfl))

theorem deliver (h : o.Carries sink₀ out) (hne : o.buffer ≠ #[]) :
    o.deliver.Carries sink₀ out ∧ o.deliver.buffer = #[] := by
  obtain ⟨sink, buffer, failure⟩ := o
  obtain ⟨hfailure, hroom, sent, hout, hrel⟩ := h
  cases hrel with
  | none => exact ⟨⟨hfailure, Nat.zero_le _, out, by simp [Outbox.deliver], .none⟩, rfl⟩
  | some htook =>
    obtain ⟨haccepts, hnone, htook⟩ := htook.write buffer hne hroom
    simp only [Outbox.deliver, haccepts, hnone, Nat.lt_irrefl, if_false]
    exact ⟨⟨rfl, Nat.zero_le _, out, by simp, by rw [hout]; exact .some htook⟩, trivial⟩

theorem flush (h : o.Carries sink₀ out) : o.flush.Carries sink₀ out ∧ o.flush.buffer = #[] := by
  by_cases hempty : o.buffer = #[]
  · rw [Outbox.flush, if_pos (by simp [hempty])]
    exact ⟨h, hempty⟩
  · rw [Outbox.flush, if_neg (by simp [h.healthy, hempty])]
    exact h.deliver hempty

/-- A byte that is put comes after those before it. -/
theorem put (h : o.Carries sink₀ out) (b : UInt8) : (o.put b).Carries sink₀ (out ++ [b]) := by
  -- Where the buffer is full it is flushed first, so there is room in both cases.
  have hpush {o : Outbox} (h : o.Carries sink₀ out) (hroom : o.buffer.size < capacity) :
      (if o.failure.isSome then o else { o with buffer := o.buffer.push b }).Carries sink₀
        (out ++ [b]) := by
    obtain ⟨sent, hout, hrel⟩ := h.taken
    rw [if_neg (by simp [h.healthy])]
    exact ⟨h.healthy, by simp only [Array.size_push]; omega, sent, by simp [hout], hrel⟩
  rw [Outbox.put, if_neg (by simp [h.healthy])]
  by_cases hfull : capacity ≤ o.buffer.size
  · obtain ⟨hflush, hempty⟩ := h.flush
    simp only [if_pos hfull]
    exact hpush hflush (by rw [hempty]; decide)
  · simp only [if_neg hfull]
    exact hpush h (by omega)

/-- What a flushed outbox was given has all been taken. -/
theorem took (h : o.Carries sink₀ out) (hempty : o.buffer = #[]) :
    Option.Rel (Sink.Took out) sink₀ o.sink := by
  obtain ⟨sent, hout, hrel⟩ := h.taken
  rw [hempty, Array.toList_empty, List.append_nil] at hout
  rw [hout]
  exact hrel

/-- Nothing is cancelled on the way, if the call that would do so is in the past. -/
theorem not_cancelled {o' : Outbox} {out' : List UInt8} (h : o.Carries sink₀ out)
    (h' : o'.Carries sink₀ out') (hcalm : ∀ s, sink₀ = some s → s.cancelAt ≤ s.writes.size) :
    o'.hasCancelledSince o.calls = false := by
  obtain ⟨sink, buffer, failure⟩ := o
  obtain ⟨sink', buffer', failure'⟩ := o'
  obtain ⟨-, -, sent, -, hrel⟩ := h
  obtain ⟨-, -, sent', -, hrel'⟩ := h'
  cases hrel with
  | none =>
    cases hrel'
    rfl
  | some htook =>
    cases hrel' with
    | some htook' =>
      have hpast := hcalm _ rfl
      obtain ⟨calls, hcalls, -⟩ := htook.writes
      have hsize := congrArg List.length hcalls
      rw [List.length_append, Array.length_toList, Array.length_toList] at hsize
      simp only [hasCancelledSince, Outbox.calls, Sink.hasCancelledSince, Option.map_some,
        Option.getD_some, htook'.cancelAt]
      simp only [Bool.and_eq_false_iff, decide_eq_false_iff_not]
      omega

end Carries
end Outbox

/-- A flushed outbox has nothing to flush. -/
theorem Outbox.flush_flush (o : Outbox) : o.flush.flush = o.flush := by
  by_cases hidle : (o.failure.isSome || o.buffer.isEmpty) = true
  · have ho : o.flush = o := if_pos hidle
    rw [ho, ho]
  · have ho : o.flush = o.deliver := if_neg hidle
    rw [ho, Outbox.flush, if_pos ?_]
    obtain ⟨sink, buffer, failure⟩ := o
    cases sink with
    | none => simp [Outbox.deliver]
    | some s =>
      simp only [Outbox.deliver]
      split <;> simp

/-! ### The machine -/

/-- The machine that a step leads to. -/
def Progress.machine {w : Nat} : Progress w → Machine w
  | .running m => m
  | .stopped m _ _ => m

namespace Machine
variable {w : Nat}

/-- Whether the next byte is a given instruction. -/
def isAt (task : Task) (i : Instruction) (m : Machine w) : Bool :=
  (task.program[m.ip]?).bind Instruction.ofByte? == some i

/-- What the output instructions among those executed have written: the low byte of the current cell at
each of them. -/
def outputs (task : Task) (visited : List (Machine w)) : List UInt8 :=
  (visited.filter (·.isAt task .output)).map (·.tape.byte)

/-- The machine at the moment its next step reads, if it does: the instruction is counted, and what was
collected is sent. -/
def reading? (task : Task) (m : Machine w) : Option (Machine w) :=
  if (m.due task).bind Instruction.ofByte? = some .input ∧ m.outbox.flush.failure = none then
    some m.counted.flush
  else none

theorem outputs_append_output {task : Task} {m : Machine w} (visited : List (Machine w))
    (h : m.isAt task .output = true) :
    outputs task (visited ++ [m]) = outputs task visited ++ [m.tape.byte] := by
  simp [outputs, h]

theorem outputs_append_other {task : Task} {m : Machine w} (visited : List (Machine w))
    (h : m.isAt task .output = false) : outputs task (visited ++ [m]) = outputs task visited := by
  simp [outputs, h]

theorem isAt_of_due {task : Task} {m : Machine w} {byte : UInt8} (h : m.due task = some byte)
    (i : Instruction) : m.isAt task i = true ↔ Instruction.ofByte? byte = some i := by
  simp [isAt, program_of_due h]

/-- An instruction other than output leaves the outbox alone or flushes it, and writes nothing. -/
theorem outbox_of_running {task : Task} {m m' : Machine w} (h : m.step task = .running m') :
    (m.isAt task .output = true ∧ m'.outbox = m.outbox.put m.tape.byte ∧
      m'.written = m.written + 1) ∨
    (m.isAt task .output = false ∧ (m'.outbox = m.outbox ∨ m'.outbox = m.outbox.flush) ∧
      m'.written = m.written) := by
  have hother {byte : UInt8} (hdue : m.due task = some byte)
      (hi : Instruction.ofByte? byte ≠ some .output) : m.isAt task .output = false := by
    rw [← Bool.not_eq_true, isAt_of_due hdue]
    exact hi
  cases advances_of_running h with
  | shift hdue _ hi => exact .inr ⟨hother hdue hi, .inl rfl, rfl⟩
  | write hdue hi => exact .inl ⟨(isAt_of_due hdue _).mpr hi, rfl, rfl⟩
  | read hdue hi => exact .inr ⟨hother hdue (by rw [hi]; decide), .inr rfl, rfl⟩
  | ended hdue hi => exact .inr ⟨hother hdue (by rw [hi]; decide), .inr rfl, rfl⟩
  | skip hdue => exact .inr ⟨hother hdue (by decide), .inl rfl, rfl⟩
  | enter hdue => exact .inr ⟨hother hdue (by decide), .inl rfl, rfl⟩
  | leave hdue => exact .inr ⟨hother hdue (by decide), .inl rfl, rfl⟩
  | back hdue => exact .inr ⟨hother hdue (by decide), .inl rfl, rfl⟩

/-- Where everything is accepted, the fault told is the one given. -/
theorem abort_of_carries {sink₀ : Option Sink} {out : List UInt8} {m : Machine w}
    (h : m.outbox.Carries sink₀ out) (reason : StopReason) (fault : Fault) :
    m.abort reason fault = .stopped m.flush reason (some fault) := by
  obtain ⟨told, habort, hsame, -⟩ := abort_eq m reason fault
  rw [habort, hsame h.flush.1.healthy]

/-- A step that goes on puts what it writes into the outbox. -/
theorem carries_of_running {task : Task} {sink₀ : Option Sink} {visited : List (Machine w)}
    {m m' : Machine w} (h : m.outbox.Carries sink₀ (outputs task visited))
    (hstep : m.step task = .running m') :
    m'.outbox.Carries sink₀ (outputs task (visited ++ [m])) := by
  rcases outbox_of_running hstep with ⟨hat, hbox, -⟩ | ⟨hat, hbox | hbox, -⟩
  · rw [outputs_append_output visited hat, hbox]
    exact h.put _
  · rw [outputs_append_other visited hat, hbox]
    exact h
  · rw [outputs_append_other visited hat, hbox]
    exact h.flush.1

/-- A step that stops writes nothing and sends everything. -/
theorem carries_of_stopped {task : Task} {sink₀ : Option Sink} {out : List UInt8} {m m' : Machine w}
    {reason : StopReason} {fault : Option Fault} (h : m.outbox.Carries sink₀ out)
    (hstop : m.step task = .stopped m' reason fault) :
    m'.outbox.Carries sink₀ out ∧ m'.outbox.buffer = #[] ∧ m'.written = m.written := by
  rcases stop_cases hstop with ⟨-, hf⟩ | ⟨n, given, hgive, habort⟩
  · rw [machine_of_finish hf]
    exact ⟨h.flush.1, h.flush.2, rfl⟩
  · obtain ⟨rfl, -⟩ := machine_of_abort habort
    cases hgive with
    | spent => exact ⟨h.flush.1, h.flush.2, rfl⟩
    | interrupted => exact ⟨h.flush.1, h.flush.2, rfl⟩
    | writing _ _ hfailed =>
      rw [(h.put _).healthy] at hfailed
      cases hfailed
    | flushing _ _ hfailed =>
      rw [h.flush.1.healthy] at hfailed
      cases hfailed
    | reading => exact ⟨h.flush.1.flush.1, h.flush.1.flush.2, rfl⟩
    | unrecorded => exact ⟨h.flush.1, h.flush.2, rfl⟩
    | stray => exact ⟨h.flush.1, h.flush.2, rfl⟩

/-- A machine that has stopped is flushed. -/
theorem flushed_of_stopped {task : Task} {m m' : Machine w} {reason : StopReason} {fault : Option Fault}
    (h : m.step task = .stopped m' reason fault) : m'.outbox.flush = m'.outbox := by
  have hflush (n : Machine w) : n.flush.outbox.flush = n.flush.outbox := n.outbox.flush_flush
  rcases stop_cases h with ⟨-, hf⟩ | ⟨n, given, -, habort⟩
  · rw [machine_of_finish hf]
    exact hflush m
  · rw [(machine_of_abort habort).1]
    exact hflush n

theorem flushed_of_run {task : Task} {m : Machine w} {fuel : Nat} {h : Halt w} (hrun : run task fuel m = some h) :
    h.machine.outbox.flush = h.machine.outbox := by
  obtain ⟨visited, last, -, -, hstop⟩ := run_eq_some_iff.mp hrun
  exact flushed_of_stopped hstop

theorem reading?_of_due {task : Task} {m : Machine w} {byte : UInt8} (hdue : m.due task = some byte)
    (hi : Instruction.ofByte? byte = some .input) (hf : m.outbox.flush.failure = none) :
    m.reading? task = some m.counted.flush := by
  rw [reading?, hdue, if_pos ⟨hi, hf⟩]

theorem reading?_of_other {task : Task} {m : Machine w} {byte : UInt8} (hdue : m.due task = some byte)
    (hi : Instruction.ofByte? byte ≠ some .input) : m.reading? task = none := by
  rw [reading?, hdue]
  exact if_neg (fun h => hi h.1)

theorem reading?_of_not_due {task : Task} {m : Machine w} (hdue : m.due task = none) :
    m.reading? task = none := by
  rw [reading?, hdue]
  exact if_neg (fun h => by cases h.1)

/-- A step takes from the input at the moment at which it reads, and never else. -/
theorem input_step (task : Task) (m : Machine w) :
    (m.step task).machine.input =
      match m.reading? task with
      | some r => r.input.readByte.2
      | none => m.input := by
  cases hstep : m.step task with
  | running m' =>
    cases advances_of_running hstep with
    | shift hdue _ _ hi =>
      rw [reading?_of_other hdue hi]
      rfl
    | write hdue hi =>
      rw [reading?_of_other hdue (by rw [hi]; decide)]
      rfl
    | read hdue hi hf =>
      rw [reading?_of_due hdue hi hf]
      rfl
    | ended hdue hi hf =>
      rw [reading?_of_due hdue hi hf]
      rfl
    | skip hdue =>
      rw [reading?_of_other hdue (by decide)]
      rfl
    | enter hdue =>
      rw [reading?_of_other hdue (by decide)]
      rfl
    | leave hdue =>
      rw [reading?_of_other hdue (by decide)]
      rfl
    | back hdue =>
      rw [reading?_of_other hdue (by decide)]
      rfl
  | stopped m' reason fault =>
    rcases stop_cases hstep with ⟨hend, hf⟩ | ⟨n, given, hgive, habort⟩
    · rw [reading?_of_not_due (by simp [due, hend]), machine_of_finish hf]
      rfl
    · obtain ⟨rfl, -⟩ := machine_of_abort habort
      cases hgive with
      | spent _ hspent =>
        rw [reading?_of_not_due (by simp [due, hspent])]
        rfl
      | interrupted _ _ hraised =>
        rw [reading?_of_not_due (by simp [due, hraised])]
        rfl
      | writing hdue hi =>
        rw [reading?_of_other hdue (by rw [hi]; decide)]
        rfl
      | flushing hdue hi hf =>
        have hnone : m.reading? task = none := by
          rw [reading?, hdue]
          exact if_neg (fun h => by rw [hf] at h; cases h.2)
        rw [hnone]
        rfl
      | reading hdue hi hf =>
        rw [reading?_of_due hdue hi hf]
        rfl
      | unrecorded hdue =>
        rw [reading?_of_other hdue (by decide)]
        rfl
      | stray hdue =>
        rw [reading?_of_other hdue (by decide)]
        rfl

theorem due_of_reading? {task : Task} {m r : Machine w} (h : m.reading? task = some r) :
    r = m.counted.flush ∧ m.outbox.flush.failure = none ∧
      ∃ byte, m.due task = some byte ∧ Instruction.ofByte? byte = some .input := by
  unfold reading? at h
  split at h
  · next hreads =>
    obtain ⟨byte, hdue, hi⟩ := Option.bind_eq_some_iff.mp hreads.1
    exact ⟨(Option.some.inj h).symm, hreads.2, byte, hdue, hi⟩
  · cases h

/-- A read that gets neither a byte nor the end of the input gives up. -/
theorem step_of_failed_read {task : Task} {m r : Machine w} (h : m.reading? task = some r) {fault : Fault}
    (hanswer : r.input.readByte.1 = .error fault) (hother : fault.isA .endOfInput = false) :
    m.step task = r.take.2.abort .failed (.caused .io (.reading m.ip fault.message)) := by
  obtain ⟨rfl, hf, byte, hdue, hi⟩ := due_of_reading? h
  rw [step_of_due hdue, execute, hi]
  rcases accept_cases task.eof m.counted with ⟨text, hf', -⟩ | ⟨-, b, ht, -⟩ | ⟨-, fault', ht, he, -⟩ |
    ⟨-, fault', ht, -, hstop⟩
  · cases hf.symm.trans hf'
  · cases hanswer.symm.trans ht
  · obtain rfl := Except.error.inj (hanswer.symm.trans ht)
    cases hother.symm.trans he
  · obtain rfl := Except.error.inj (hanswer.symm.trans ht)
    exact hstop

/-- The next step of `m` is the read that `r` makes: it takes from the input of `r`, sends nothing more to its sink, and
goes on, or fails, as the answer to `r` says. -/
structure ReadsAs (task : Task) (m r : Machine w) : Prop where
  input : (m.step task).machine.input = r.input.readByte.2
  outbox : (m.step task).machine.outbox = r.outbox
  byte : ∀ b, r.input.readByte.1 = .ok b →
    ∃ m', m.step task = .running m' ∧ m'.tape = r.tape.setByte b ∧ m'.read = r.read + 1
  ended : ∀ fault, r.input.readByte.1 = .error fault → fault.isA .endOfInput = true →
    ∃ m', m.step task = .running m' ∧ m'.read = r.read
  failed : ∀ fault, r.input.readByte.1 = .error fault → fault.isA .endOfInput = false →
    ∃ m' told, m.step task = .stopped m' .failed (some told) ∧ m'.read = r.read

theorem readsAs_of_reading? {task : Task} {m r : Machine w} (h : m.reading? task = some r) : m.ReadsAs task r := by
  have hinput : (m.step task).machine.input = r.input.readByte.2 := by rw [input_step, h]
  have hfails := @step_of_failed_read w task m r h
  obtain ⟨rfl, hf, byte, hdue, hi⟩ := due_of_reading? h
  have hbyte {b : UInt8} (hok : m.counted.flush.input.readByte.1 = .ok b) :=
    (Advances.read hdue hi hf hok).running
  have hended {fault : Fault} (herror : m.counted.flush.input.readByte.1 = .error fault)
      (hend : fault.isA .endOfInput = true) := (Advances.ended hdue hi hf herror hend).running
  refine ⟨hinput, ?_, fun b hok => ⟨_, hbyte hok, rfl, rfl⟩,
    fun fault herror hend => ⟨_, hended herror hend, rfl⟩, fun fault herror hother => ?_⟩
  · cases hanswer : m.counted.flush.input.readByte.1 with
    | ok b => rw [hbyte hanswer]; rfl
    | error fault =>
      cases hend : fault.isA .endOfInput with
      | true => rw [hended hanswer hend]; rfl
      | false =>
        obtain ⟨told, habort, -⟩ := abort_eq m.counted.flush.take.2 .failed (.caused .io (.reading m.ip fault.message))
        rw [hfails hanswer hend, habort]
        exact m.outbox.flush_flush
  · obtain ⟨told, habort, -⟩ := abort_eq m.counted.flush.take.2 .failed (.caused .io (.reading m.ip fault.message))
    exact ⟨_, told, (hfails herror hother).trans habort, rfl⟩

/-! ### Whole runs -/

/-- What a halt leaves is what the machine `last` has, which was reached by executing one instruction on each of the
machines `visited`. -/
structure Halt.LeftAt (task : Task) (sink : Option Sink) (visited : List (Machine w)) (last : Machine w)
    (h : Halt w) : Prop where
  tape : h.machine.tape = last.tape
  input : h.machine.input = last.input
  read : h.result.read = last.read
  written : h.result.written = last.written
  delivered : Option.Rel (Sink.Took (outputs task visited)) sink h.machine.outbox.sink

section
variable {task : Task} {tape : Tape w} {input : Input} {sink : Option Sink} {signal : Signal}
  (hsink : ∀ s, sink = some s → s.AcceptsAll)
include hsink

/-- Throughout a run the outbox carries what the output instructions have written, and counts it. -/
theorem carries_run {visited : List (Machine w)} {m : Machine w}
    (hrun : Run task (fresh tape input sink signal) visited m) :
    m.outbox.Carries sink (outputs task visited) ∧ m.written = (outputs task visited).length := by
  refine hrun.invariant (P := fun before n =>
    n.outbox.Carries sink (outputs task before) ∧ n.written = (outputs task before).length)
    ⟨.start hsink, rfl⟩ (fun before n n' hn hstep => ⟨carries_of_running hn.1 hstep, ?_⟩)
  rcases outbox_of_running hstep with ⟨hat, -, hwritten⟩ | ⟨hat, -, hwritten⟩
  · rw [outputs_append_output before hat, hwritten, hn.2, List.length_append]
    rfl
  · rw [outputs_append_other before hat, hwritten, hn.2]

/-- A machine that is given up between two instructions leaves what it has, once that is sent. -/
theorem Run.leftAt {visited : List (Machine w)} {m : Machine w} {h : Halt w}
    (hrun : Run task (fresh tape input sink signal) visited m)
    (hmachine : h.machine = m.flush ∨ h.machine = m.counted.flush) : h.LeftAt task sink visited m := by
  obtain ⟨hflush, hempty⟩ := (carries_run hsink hrun).1.flush
  have hsent := hflush.took hempty
  obtain ⟨n, reason, fault⟩ := h
  rcases hmachine with rfl | rfl
  · exact ⟨rfl, rfl, rfl, rfl, hsent⟩
  · exact ⟨rfl, rfl, rfl, rfl, hsent⟩

/-- The sink has taken everything when the task halts. -/
theorem took_halts {visited : List (Machine w)} {h : Halt w}
    (hafter : HaltsAfter task (fresh tape input sink signal) visited h) :
    Option.Rel (Sink.Took (outputs task visited)) sink h.machine.outbox.sink ∧
      h.machine.written = (outputs task visited).length := by
  cases hafter with
  | cancelled _ hstop =>
    obtain ⟨hcarries, hempty⟩ := (Outbox.Carries.start hsink).flush
    rw [(machine_of_abort hstop).1]
    exact ⟨hcarries.took hempty, rfl⟩
  | stopped _ hrun hstop =>
    obtain ⟨hcarries, hcount⟩ := carries_run hsink hrun
    obtain ⟨hlast, hempty, hwritten⟩ := carries_of_stopped hcarries hstop
    exact ⟨hlast.took hempty, by rw [hwritten, hcount]⟩

end

/-- **Buffering cannot be told from the outside.** Whenever a machine reads, and when it halts, the sink has
taken exactly what the output instructions executed so far have written; and every call on the sink, also
of a run that does not halt, offers between one byte and 4096. What was collected is sent before the input is touched:
a step that cannot send it takes nothing from the input. -/
theorem delivered_as_written (task : Task) (tape : Tape w) (input : Input) (sink : Option Sink)
    (signal : Signal) (hsink : ∀ s, sink = some s → s.AcceptsAll) :
    (∀ visited m, Run task (fresh tape input sink signal) visited m →
      (∃ sent, Option.Rel (Sink.Took sent) sink m.outbox.sink) ∧
      (m.reading? task = none → (m.step task).machine.input = m.input) ∧
      ∀ r, m.reading? task = some r → m.ReadsAs task r ∧
        Option.Rel (Sink.Took (outputs task visited)) sink r.outbox.sink ∧
        Option.Rel (Sink.Took (outputs task visited)) sink (m.step task).machine.outbox.sink) ∧
    (∀ m : Machine w, m.outbox.flush.failure ≠ none → (m.step task).machine.input = m.input) ∧
    ∀ h, Halts task (fresh tape input sink signal) h →
      ∃ visited, HaltsAfter task (fresh tape input sink signal) visited h ∧
        Option.Rel (Sink.Took (outputs task visited)) sink h.machine.outbox.sink ∧
        h.result.written = (outputs task visited).length := by
  refine ⟨fun visited m hrun => ?_, fun m hfailure => ?_, fun h hhalts => ?_⟩
  · obtain ⟨hcarries, -⟩ := carries_run hsink hrun
    obtain ⟨sent, -, hsent⟩ := hcarries.taken
    refine ⟨⟨sent, hsent⟩, fun hnone => by rw [input_step, hnone], fun r hr => ?_⟩
    have hreads := readsAs_of_reading? hr
    have htook : Option.Rel (Sink.Took (outputs task visited)) sink r.outbox.sink := by
      rw [(due_of_reading? hr).1]
      exact hcarries.flush.1.took hcarries.flush.2
    exact ⟨hreads, htook, by rw [hreads.outbox]; exact htook⟩
  · have hnone : m.reading? task = none := if_neg (fun hreads => hfailure hreads.2)
    rw [input_step, hnone]
  · obtain ⟨visited, hafter⟩ := halts_iff.mp hhalts
    exact ⟨visited, hafter, took_halts hsink hafter⟩

/-- The byte written before a read is still collected when the input instruction comes. When the read is made, before
the byte read is known, the sink has taken it, and it has taken no more when the instruction is done. -/
theorem delivered_as_written_prompt :
    let task : Task := { program := #[0x2b, 0x2e, 0x2c, 0x2e], jumps := ⟨#[], 0⟩ }
    ∃ m r m' : Machine 8, m.outbox.sink = some {} ∧ m.reading? task = some r ∧ r.read = 0 ∧
      Option.Rel (Sink.Took [1]) (some {}) r.outbox.sink ∧ m.step task = .running m' ∧
      m'.tape = ⟨#[0x41], 0⟩ ∧ m'.read = 1 ∧ Option.Rel (Sink.Took [1]) (some {}) m'.outbox.sink := by
  intro task
  obtain ⟨hruns, -⟩ := delivered_as_written task ⟨#[(0 : BitVec 8)], 0⟩ (.plain { data := [0x41] }) (some {}) .clear
    (fun s hs => by cases hs; exact ⟨rfl, rfl⟩)
  obtain ⟨-, -, hreads⟩ := hruns _ _ (.cons rfl (.cons rfl (.nil _)))
  obtain ⟨hreads, hbefore, hafter⟩ := hreads _ rfl
  obtain ⟨m', hstep, htape, hread⟩ := hreads.byte 0x41 rfl
  rw [hstep] at hafter
  exact ⟨_, _, m', rfl, rfl, rfl, hbefore, hstep, htape, hread, hafter⟩

end Machine
end TapeMachine
