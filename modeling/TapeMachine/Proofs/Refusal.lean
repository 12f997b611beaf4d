import TapeMachine.Proofs.Calm
import TapeMachine.Proofs.Reporting

/-! Sinks that have had enough.

A sink that answers by its limit accepts bytes until the limit is reached and cuts the next call short. What was put
into the outbox in front of it is, at every moment, what the sink has accepted and then what is still in the buffer, and
there is a failure only when the sink is full (`Outbox.Splits`).

A machine on such a sink does what it would do on an open one, step by step, as long as its outbox has no failure. It
does not look at the outbox but for that: `step_withOutbox` exchanges the outbox of a machine that goes on, and says
that the machine goes on alike or fails for the output. So the run on the open sink is followed to its end, or to the
first call that is cut short (`Run.follows`). -/
namespace TapeMachine

/-! ### The outbox of a sink with a limit -/

/-- A sink that was `s₀` has since accepted `sent`, within its limit. -/
structure Sink.Filled (limit : Nat) (sent : List UInt8) (s₀ s : Sink) : Prop where
  replies : s.replies = []
  limited : s.limit = some limit
  delivered : s.delivered.toList = s₀.delivered.toList ++ sent
  room : sent.length ≤ limit - s₀.delivered.size

namespace Sink

theorem Filled.accepts {limit : Nat} {sent : List UInt8} {s₀ s : Sink} (h : Filled limit sent s₀ s) (n : Nat) :
    s.accepts n = min n (limit - s₀.delivered.size - sent.length) := by
  have hsize : s.delivered.size = s₀.delivered.size + sent.length := by
    rw [← Array.length_toList, h.delivered, List.length_append, Array.length_toList]
  simp only [Sink.accepts, h.replies, h.limited, hsize, Nat.sub_sub]

theorem Filled.write {limit : Nat} {sent : List UInt8} {s₀ s : Sink} (h : Filled limit sent s₀ s)
    (bytes : Array UInt8) :
    Filled limit (sent ++ bytes.toList.take (s.accepts bytes.size)) s₀ (s.write bytes).2 := by
  refine ⟨by simp [Sink.write, h.replies], h.limited, by simp [Sink.write, h.delivered], ?_⟩
  have haccepts := h.accepts bytes.size
  have hroom := h.room
  have hsize : bytes.toList.length = bytes.size := Array.length_toList
  rw [List.length_append, List.length_take, hsize]
  omega

end Sink

namespace Outbox

theorem buffer_of_flush {o : Outbox} (h : o.flush.failure = none) : o.flush.buffer = #[] := by
  unfold Outbox.flush at h ⊢
  split at h
  · next hidle =>
    rw [h, Option.isSome_none, Bool.false_or, Array.isEmpty_iff] at hidle
    rw [if_pos (by simp [hidle]), hidle]
  · next hbusy =>
    rw [if_neg hbusy]
    obtain ⟨sink, buffer, failure⟩ := o
    cases sink with
    | none => rfl
    | some s =>
      by_cases hcut : s.accepts buffer.size < buffer.size
      · simp only [Outbox.deliver, if_pos hcut] at h
        cases h
      · simp only [Outbox.deliver, if_neg hcut]

/-- The outbox of the sink `s₀` after `out` was put into it: the sink has accepted a part, and the rest is in the
buffer. If there is a failure, the sink is full and something is left. -/
structure Splits (s₀ : Sink) (limit : Nat) (out : List UInt8) (o : Outbox) : Prop where
  buffer : o.buffer.size ≤ capacity
  parts : ∃ sent s, out = sent ++ o.buffer.toList ∧ o.sink = some s ∧ Sink.Filled limit sent s₀ s ∧
    (o.failure ≠ none → sent.length = limit - s₀.delivered.size ∧ o.buffer ≠ #[])

namespace Splits
variable {s₀ : Sink} {limit : Nat} {out : List UInt8} {o : Outbox}

theorem start (hplain : s₀.replies = []) (hlimit : s₀.limit = some limit) : Splits s₀ limit [] { sink := some s₀ } :=
  ⟨Nat.zero_le _, [], s₀, rfl, rfl, ⟨hplain, hlimit, (List.append_nil _).symm, Nat.zero_le _⟩,
    fun hne => absurd rfl hne⟩

theorem deliver (h : o.Splits s₀ limit out) : o.deliver.Splits s₀ limit out := by
  obtain ⟨hbuffer, sent, s, hout, hsink, hfilled, -⟩ := h
  obtain ⟨sink, buffer, failure⟩ := o
  obtain rfl : sink = some s := hsink
  have hafter := hfilled.write buffer
  have haccepts := hfilled.accepts buffer.size
  -- What the call accepts moves from the buffer to the sink. A call that is cut short fills the sink up.
  by_cases hcut : s.accepts buffer.size < buffer.size
  · simp only [Outbox.deliver, if_pos hcut]
    refine ⟨Nat.le_trans (by simp) hbuffer, _, _, ?_, rfl, hafter, fun _ => ⟨?_, ?_⟩⟩
    · simp [hout, List.take_of_length_le]
    · have hroom := hfilled.room
      have hsize : buffer.toList.length = buffer.size := Array.length_toList
      rw [List.length_append, List.length_take, hsize]
      omega
    · exact fun hempty => by simp at hempty; omega
  · have hall := Sink.accepts_of_not_lt hcut
    simp only [Outbox.deliver, if_neg hcut]
    refine ⟨Nat.zero_le _, _, _, ?_, rfl, hafter, fun hne => absurd ?_ hne⟩
    · rw [hall, List.take_of_length_le (Nat.le_of_eq Array.length_toList), hout]
      exact (List.append_nil _).symm
    · simp [Sink.write, Sink.reports, hfilled.replies, hall]

theorem flush (h : o.Splits s₀ limit out) : o.flush.Splits s₀ limit out := by
  unfold Outbox.flush
  split
  · exact h
  · exact h.deliver

theorem put (h : o.Splits s₀ limit out) (hnone : o.failure = none) (b : UInt8) :
    ((o.put b).failure = none → (o.put b).Splits s₀ limit (out ++ [b])) ∧
      ((o.put b).failure ≠ none → (o.put b).Splits s₀ limit out) := by
  -- A full buffer is flushed first, so there is room then, or a failure.
  obtain ⟨o', h', hroom, hput⟩ : ∃ o' : Outbox, o'.Splits s₀ limit out ∧
      (o'.failure = none → o'.buffer.size < capacity) ∧
      o.put b = if o'.failure.isSome then o' else { o' with buffer := o'.buffer.push b } := by
    by_cases hfull : capacity ≤ o.buffer.size
    · exact ⟨o.flush, h.flush, fun hf => by rw [buffer_of_flush hf]; decide, by simp [Outbox.put, hnone, hfull]⟩
    · exact ⟨o, h, fun _ => Nat.lt_of_not_le hfull, by simp [Outbox.put, hnone, hfull]⟩
  rw [hput]
  cases hf : o'.failure with
  | some text => exact ⟨fun hnone => (by cases hf.symm.trans hnone), fun _ => h'⟩
  | none =>
    refine ⟨fun _ => ?_, fun hne => absurd rfl hne⟩
    obtain ⟨-, sent, s, hout, hsink, hfilled, -⟩ := h'
    have hsize := hroom hf
    refine ⟨?_, sent, s, by simp [hout], hsink, hfilled, fun hne => absurd rfl hne⟩
    show (o'.buffer.push b).size ≤ capacity
    rw [Array.size_push]
    exact hsize

end Splits
end Outbox

namespace Machine
variable {w : Nat} {task : Task}

/-! ### The outbox along a run -/

section
variable {s₀ : Sink} {limit : Nat}

/-- Throughout a run the outbox splits what the output instructions have written. -/
theorem splits_run {tape : Tape w} {input : Input} {signal : Signal} {visited : List (Machine w)} {m : Machine w}
    (hplain : s₀.replies = []) (hlimit : s₀.limit = some limit)
    (hrun : Run task (fresh tape input (some s₀) signal) visited m) :
    m.outbox.Splits s₀ limit (outputs task visited) := by
  refine (hrun.invariant (P := fun before n => (n.outbox.Holds (some s₀) (outputs task before) ∧
    n.outbox.failure = none) ∧ n.outbox.Splits s₀ limit (outputs task before))
    ⟨⟨.start _, rfl⟩, .start hplain hlimit⟩ (fun before n n' hn hstep => ?_)).2
  have hafter := holds_of_running hn.1.1 hn.1.2 hstep
  refine ⟨hafter, ?_⟩
  rcases outbox_of_running hstep with ⟨hat, hbox, -⟩ | ⟨hat, hbox | hbox, -⟩
  · rw [outputs_append_output before hat, hbox]
    exact (hn.2.put hn.1.2 _).1 (hbox ▸ hafter.2)
  · rw [outputs_append_other before hat, hbox]
    exact hn.2
  · rw [outputs_append_other before hat, hbox]
    exact hn.2.flush

theorem splits_of_stopped {out : List UInt8} {m m' : Machine w} {reason : StopReason} {fault : Option Fault}
    (h : m.outbox.Splits s₀ limit out) (hnone : m.outbox.failure = none)
    (hstop : m.step task = .stopped m' reason fault) : m'.outbox.Splits s₀ limit out := by
  rcases stop_cases hstop with ⟨-, hf⟩ | ⟨n, given, hgive, habort⟩
  · rw [machine_of_finish hf]
    exact h.flush
  · rw [(machine_of_abort habort).1]
    cases hgive with
    | spent => exact h.flush
    | interrupted => exact h.flush
    | writing _ _ hf => exact ((h.put hnone m.tape.byte).2 (by simp [hf])).flush
    | flushing => exact h.flush.flush
    | reading => exact h.flush.flush
    | unrecorded => exact h.flush
    | stray => exact h.flush

end

/-! ### Exchanging the outbox -/

/-- The machine with another outbox. -/
def withOutbox (m : Machine w) (o : Outbox) : Machine w := { m with outbox := o }

theorem Calm.withOutbox {m : Machine w} (h : m.Calm) {o : Outbox} (ho : o.Calm) : (m.withOutbox o).Calm :=
  ⟨h.signal, h.input, ho⟩

/-- Where no call cancels anything, what is done to the outbox does not show elsewhere. -/
theorem send_withOutbox {m : Machine w} {o : Outbox} (act : Outbox → Outbox)
    (hm : (act m.outbox).hasCancelledSince m.outbox.calls = false) (ho : (act o).hasCancelledSince o.calls = false) :
    (m.withOutbox o).send act = (m.send act).withOutbox (act o) := by
  simp only [send, withOutbox, hm, ho]

theorem flush_withOutbox {m : Machine w} (h : m.Calm) {o : Outbox} (ho : o.Calm) :
    (m.withOutbox o).flush = m.flush.withOutbox o.flush :=
  send_withOutbox Outbox.flush h.outbox.flush.2 ho.flush.2

/-- The halt `k` is that of a machine like `m` whose outbox has failed: nothing else has changed. -/
structure Halt.RefusedAt (m : Machine w) (k : Halt w) : Prop where
  reason : k.reason = .failed
  failure : k.machine.outbox.failure ≠ none
  tape : k.machine.tape = m.tape
  input : k.machine.input = m.input
  read : k.machine.read = m.read
  written : k.machine.written = m.written

/-- A machine that gives up because its outbox has failed leaves everything as it was. -/
theorem refusedAt_of_abort {m n : Machine w} {fault : Fault} (hfailure : n.outbox.failure ≠ none)
    (htape : n.tape = m.tape) (hinput : n.input = m.input) (hread : n.read = m.read)
    (hwritten : n.written = m.written) :
    ∃ k : Halt w, n.abort .failed fault = .stopped k.machine k.reason k.fault ∧ k.RefusedAt m := by
  obtain ⟨told, habort, -⟩ := abort_eq n .failed fault
  refine ⟨⟨n.flush, .failed, some told⟩, habort, rfl, ?_, htape, hinput, hread, hwritten⟩
  show n.outbox.flush.failure ≠ none
  rw [Outbox.flush_of_failure hfailure]
  exact hfailure

section
variable {m : Machine w} {o : Outbox} {byte : UInt8} (hdue : m.due task = some byte)
include hdue

theorem refusedAt_of_put (hi : Instruction.ofByte? byte = some .output) (hne : (o.put m.tape.byte).failure ≠ none) :
    ∃ k : Halt w, (m.withOutbox o).step task = .stopped k.machine k.reason k.fault ∧ k.RefusedAt m := by
  rw [step_of_due (show (m.withOutbox o).due task = some byte from hdue), execute, hi]
  rcases output_cases (m.withOutbox o).counted with ⟨hf, -⟩ | ⟨text, -, hfails⟩
  · exact absurd hf hne
  · rw [hfails]
    exact refusedAt_of_abort hne rfl rfl rfl rfl

theorem refusedAt_of_flush (hi : Instruction.ofByte? byte = some .input) (hne : o.flush.failure ≠ none) :
    ∃ k : Halt w, (m.withOutbox o).step task = .stopped k.machine k.reason k.fault ∧ k.RefusedAt m := by
  rw [step_of_due (show (m.withOutbox o).due task = some byte from hdue), execute, hi]
  rcases accept_cases task.eof (m.withOutbox o).counted with ⟨text, -, hfails⟩ | ⟨hf, -⟩ | ⟨hf, -⟩ | ⟨hf, -⟩
  · rw [hfails]
    exact refusedAt_of_abort hne rfl rfl rfl rfl
  · exact absurd hf hne
  · exact absurd hf hne
  · exact absurd hf hne

end

/-- With another outbox a machine that goes on does so alike, or fails for the output. -/
theorem step_withOutbox {m m' : Machine w} (h : m.Calm) {o : Outbox} (ho : o.Calm)
    (hstep : m.step task = .running m') :
    (∃ o', (m.withOutbox o).step task = .running (m'.withOutbox o')) ∨
    ∃ k : Halt w, (m.withOutbox o).step task = .stopped k.machine k.reason k.fault ∧ k.RefusedAt m := by
  have hput : (m.counted.withOutbox o).send (·.put m.tape.byte) = _ :=
    send_withOutbox (m := m.counted) (·.put m.tape.byte) (h.outbox.put _).2 (ho.put _).2
  have hflush := flush_withOutbox h.counted ho
  -- Reading does not look at the outbox.
  have htake : (m.counted.withOutbox o).flush.take =
      (m.counted.flush.take.1, m.counted.flush.take.2.withOutbox o.flush) := by
    rw [hflush]
    rfl
  cases advances_of_running hstep with
  | shift hdue hb hw hi => exact .inl ⟨o, (Advances.shift (m := m.withOutbox o) hdue hb hw hi).running⟩
  | write hdue hi =>
    by_cases hf : (o.put m.tape.byte).failure = none
    · refine .inl ⟨o.put m.tape.byte, (Advances.write (m := m.withOutbox o) hdue hi hf).running.trans ?_⟩
      show Progress.running { (m.counted.withOutbox o).send (·.put m.tape.byte) with
        written := m.written + 1, ip := m.ip + 1 } = _
      rw [hput]
      rfl
    · exact .inr (refusedAt_of_put hdue hi hf)
  | @read byte b hdue hi _ ht =>
    by_cases hf : o.flush.failure = none
    · have ht' : (m.withOutbox o).counted.flush.take.1 = .ok b := (congrArg Prod.fst htake).trans ht
      refine .inl ⟨o.flush, (Advances.read (m := m.withOutbox o) hdue hi hf ht').running.trans ?_⟩
      show Progress.running { (m.counted.withOutbox o).flush.take.2 with
        tape := m.tape.setByte b, read := m.read + 1, ip := m.ip + 1 } = _
      rw [htake]
      rfl
    · exact .inr (refusedAt_of_flush hdue hi hf)
  | @ended byte fault hdue hi _ ht he =>
    by_cases hf : o.flush.failure = none
    · have ht' : (m.withOutbox o).counted.flush.take.1 = .error fault := (congrArg Prod.fst htake).trans ht
      refine .inl ⟨o.flush, (Advances.ended (m := m.withOutbox o) hdue hi hf ht' he).running.trans ?_⟩
      show Progress.running { (m.counted.withOutbox o).flush.take.2 with
        tape := applyEof task.eof m.tape, ip := m.ip + 1 } = _
      rw [htake]
      rfl
    · exact .inr (refusedAt_of_flush hdue hi hf)
  | skip hdue hz hj => exact .inl ⟨o, (Advances.skip (m := m.withOutbox o) hdue hz hj).running⟩
  | enter hdue hz => exact .inl ⟨o, (Advances.enter (m := m.withOutbox o) hdue hz).running⟩
  | leave hdue hitems hz => exact .inl ⟨o, (Advances.leave (m := m.withOutbox o) hdue hitems hz).running⟩
  | back hdue hitems hz => exact .inl ⟨o, (Advances.back (m := m.withOutbox o) hdue hitems hz).running⟩

/-- So does one that comes to its end. -/
theorem finish_withOutbox {m : Machine w} (h : m.Calm) {o : Outbox} (ho : o.Calm) :
    (o.flush.failure = none ∧
      (m.withOutbox o).finish = .stopped (m.flush.withOutbox o.flush) .finished none) ∨
    ∃ k : Halt w, (m.withOutbox o).finish = .stopped k.machine k.reason k.fault ∧ k.RefusedAt m := by
  rcases finish_cases (m.withOutbox o) with ⟨hf, hfinish⟩ | ⟨text, hf, hfinish⟩
  · rw [flush_withOutbox h ho] at hfinish
    exact .inl ⟨hf, hfinish⟩
  · have hne : (m.withOutbox o).flush.outbox.failure ≠ none := by
      rw [hf]
      exact Option.some_ne_none text
    exact .inr ⟨⟨_, _, _⟩, hfinish, rfl, hne, rfl, rfl, rfl, rfl⟩

/-! ### Following a run -/

/-- The machine `m` gets to `m'` by executing one instruction on each of the machines `visited`, and so it does with the
outbox `o`, which is `o'` then. -/
structure Follows (task : Task) (o : Outbox) (m : Machine w) (visited : List (Machine w)) (m' : Machine w)
    (seen : List (Machine w)) (o' : Outbox) : Prop where
  run : Run task m visited m'
  alike : Run task (m.withOutbox o) seen (m'.withOutbox o')
  sameOutput : outputs task seen = outputs task visited

theorem outputs_append (task : Task) (before later : List (Machine w)) :
    outputs task (before ++ later) = outputs task before ++ outputs task later := by
  simp [outputs]

theorem Follows.cons {o o' o'' : Outbox} {m m' m'' : Machine w} {visited seen : List (Machine w)}
    (hstep : m.step task = .running m') (hstep' : (m.withOutbox o).step task = .running (m'.withOutbox o'))
    (h : Follows task o' m' visited m'' seen o'') :
    Follows task o m (m :: visited) m'' (m.withOutbox o :: seen) o'' := by
  refine ⟨.cons hstep h.run, .cons hstep' h.alike, ?_⟩
  have hfirst : outputs task [m.withOutbox o] = outputs task [m] := by
    have hat : (m.withOutbox o).isAt task .output = m.isAt task .output := rfl
    simp only [outputs, List.filter_cons, List.filter_nil, hat]
    split <;> rfl
  calc outputs task (m.withOutbox o :: seen)
    _ = outputs task [m.withOutbox o] ++ outputs task seen := outputs_append task [_] seen
    _ = outputs task [m] ++ outputs task visited := by rw [hfirst, h.sameOutput]
    _ = outputs task (m :: visited) := (outputs_append task [m] visited).symm

/-- With another outbox a run is followed to its end, or up to a failure of the outbox. -/
theorem Run.follows {m m' : Machine w} {visited : List (Machine w)} (hrun : Run task m visited m') (h : m.Calm)
    {o : Outbox} (ho : o.Calm) :
    (∃ seen o', Follows task o m visited m' seen o') ∨
    ∃ before later n seen o', ∃ k : Halt w, visited = before ++ later ∧ Follows task o m before n seen o' ∧
      (n.withOutbox o').step task = .stopped k.machine k.reason k.fault ∧ k.RefusedAt n := by
  -- The first step is made with the other outbox too, or is the one that fails.
  induction hrun generalizing o with
  | nil m => exact .inl ⟨[], o, .nil m, .nil _, rfl⟩
  | @cons m n m' visited hstep hrun ih =>
    rcases step_withOutbox h ho hstep with ⟨o', hstep'⟩ | ⟨k, hstop, hrefused⟩
    · have hnext := (h.withOutbox ho).step hstep'
      rcases ih (h.step hstep) hnext.outbox with ⟨seen, o'', hfollows⟩ |
        ⟨before, later, n, seen, o'', k, rfl, hfollows, hstop, hrefused⟩
      · exact .inl ⟨_, o'', hfollows.cons hstep hstep'⟩
      · exact .inr ⟨m :: before, later, n, _, o'', k, rfl, hfollows.cons hstep hstep', hstop, hrefused⟩
    · exact .inr ⟨[], m :: visited, m, [], o, k, rfl, ⟨.nil m, .nil _, rfl⟩, hstop, hrefused⟩

/-- A run to the end of the program ends well with the other outbox too, or fails for it somewhere on the way. -/
theorem Run.follows_end {m last : Machine w} {visited : List (Machine w)} (hrun : Run task m visited last)
    (hend : task.program[last.ip]? = none) (h : m.Calm) {o : Outbox} (ho : o.Calm) :
    (∃ seen o', Follows task o m visited last seen o' ∧ o'.flush.failure = none ∧
      (last.withOutbox o').step task = .stopped (last.flush.withOutbox o'.flush) .finished none) ∨
    ∃ before n seen o', ∃ k : Halt w, before <+: visited ∧ Follows task o m before n seen o' ∧
      (n.withOutbox o').step task = .stopped k.machine k.reason k.fault ∧ k.RefusedAt n := by
  rcases hrun.follows h ho with ⟨seen, o', hfollows⟩ | ⟨before, later, n, seen, o', k, rfl, hfollows, hstop, hrefused⟩
  · have hlast := (h.withOutbox ho).run hfollows.alike
    have hstep : (last.withOutbox o').step task = (last.withOutbox o').finish := step_of_end hend
    rcases finish_withOutbox (h.run hrun) hlast.outbox with ⟨hf, hfinish⟩ | ⟨k, hstop, hrefused⟩
    · exact .inl ⟨seen, o', hfollows, hf, hstep.trans hfinish⟩
    · exact .inr ⟨visited, last, seen, o', k, List.prefix_rfl, hfollows, hstep.trans hstop, hrefused⟩
  · exact .inr ⟨before, n, seen, o', k, List.prefix_append .., hfollows, hstop, hrefused⟩

/-! ### Halting on a full sink -/

/-- A run that visits `visited` on an open sink halts as `k` on the sink `s`, which is full before the run is over: the
call that was cut short is the last one, and the rest is as it was somewhere on the way. -/
structure Halt.CutOff (task : Task) (s : Sink) (limit : Nat) (m : Machine w) (visited : List (Machine w))
    (k : Halt w) : Prop where
  stop : k.result.stop = .failed
  io : k.isA .io = true
  calls : ∃ s' calls last, k.machine.outbox.sink = some s' ∧ s'.writes.toList = s.writes.toList ++ (calls ++ [last]) ∧
    (∀ call ∈ calls, call.2 = call.1) ∧ last.2 < last.1
  written : k.result.written ≤ limit - s.delivered.size + 4096
  state : ∃ before n, before <+: visited ∧ Run task m before n ∧ k.machine.tape = n.tape ∧
    k.machine.input = n.input ∧ k.result.read = n.read ∧ k.result.written = n.written

section
variable {tape : Tape w} {input : Input} {opened s : Sink} {limit : Nat} (hplain : s.replies = [])
  (hlimit : s.limit = some limit)
include hplain hlimit

/-- Where the outbox fails the sink is full, and what it has accepted is the first part of what was written. -/
theorem Follows.cutOff {before seen : List (Machine w)} {n : Machine w} {o : Outbox} {k : Halt w}
    (hopen : opened.AcceptsAll)
    (h : Follows task { sink := some s } (fresh tape input (some opened) .clear) before n seen o)
    (hstop : (n.withOutbox o).step task = .stopped k.machine k.reason k.fault) (hrefused : k.RefusedAt n)
    {visited : List (Machine w)} (hbefore : before <+: visited) :
    limit - s.delivered.size < (outputs task visited).length ∧
    (∃ s', k.machine.outbox.sink = some s' ∧
      s'.delivered.toList = s.delivered.toList ++ (outputs task visited).take (limit - s.delivered.size)) ∧
    k.CutOff task s limit (fresh tape input (some opened) .clear) visited := by
  have halike : Run task (fresh tape input (some s) .clear) seen (n.withOutbox o) := h.alike
  have hat : HaltsAt task (fresh tape input (some s) .clear) seen (some (n.withOutbox o)) k :=
    .stopped rfl halike hstop
  obtain ⟨hholds, -, hhonest⟩ := hat.holds
  obtain ⟨s₀, s', hs₀, hs', accepted, lost, calls, last, hparts, haccepted, hcalls, hwholes, hlast, -⟩ :=
    hholds.refused hrefused.failure
  obtain rfl := Option.some.inj hs₀
  obtain ⟨hbuffer, sent, s'', hout, hs'', hfilled, hfull⟩ :=
    splits_of_stopped (splits_run hplain hlimit halike) (holds_run halike).2 hstop
  obtain rfl := Option.some.inj (hs'.symm.trans hs'')
  obtain ⟨hsent, hleft⟩ := hfull hrefused.failure
  -- What is left in the buffer was lost in the last call.
  have hcut : last.2 < last.1 := by
    rw [hfilled.delivered, List.append_cancel_left_eq] at haccepted
    rw [hparts, haccepted, List.append_cancel_left_eq] at hout
    rw [← hlast, hout, Array.length_toList]
    exact Nat.lt_add_of_pos_right (Array.size_pos_iff.mpr hleft)
  rw [h.sameOutput] at hout
  have hcount : (outputs task before).length = sent.length + k.machine.outbox.buffer.size := by
    simp [hout]
  have hwritten : n.written = (outputs task before).length :=
    (carries_run (fun t ht => by cases ht; exact hopen) h.run).2
  have hpos : 0 < k.machine.outbox.buffer.size := Array.size_pos_iff.mpr hleft
  obtain ⟨later, rfl⟩ := hbefore
  refine ⟨?_, ⟨s', hs', ?_⟩, hrefused.reason, hhonest.io_iff.mpr (.inl (hholds.callFailed_iff.mpr hrefused.failure)),
    ⟨s', calls, last, hs', hcalls, hwholes, hcut⟩, ?_, before, n, List.prefix_append .., h.run, hrefused.tape,
    hrefused.input, hrefused.read, hrefused.written⟩
  · rw [outputs_append, List.length_append]
    omega
  · rw [hfilled.delivered, outputs_append, hout, List.append_assoc, List.take_left' hsent]
  · show k.machine.written ≤ _
    rw [hrefused.written, hwritten, hcount, hsent]
    exact Nat.add_le_add_left hbuffer _

/-- Where it does not fail the sink has accepted everything. -/
theorem Follows.whole {visited seen : List (Machine w)} {last : Machine w} {o : Outbox}
    (h : Follows task { sink := some s } (fresh tape input (some opened) .clear) visited last seen o)
    (hnone : o.flush.failure = none) :
    (outputs task visited).length ≤ limit - s.delivered.size ∧
    ∃ s', o.flush.sink = some s' ∧ s'.delivered.toList = s.delivered.toList ++ outputs task visited := by
  have halike : Run task (fresh tape input (some s) .clear) seen (last.withOutbox o) := h.alike
  obtain ⟨-, sent, s', hout, hs', hfilled, -⟩ := (splits_run hplain hlimit halike).flush
  have hbuffer : (last.withOutbox o).outbox.flush.buffer = #[] := Outbox.buffer_of_flush hnone
  rw [h.sameOutput, hbuffer, Array.toList_empty, List.append_nil] at hout
  rw [hout]
  exact ⟨hfilled.room, s', hs', hfilled.delivered⟩

end

/-- A good end leaves the last machine flushed, behind the program and without a fault. -/
theorem halt_of_finished {last : Machine w} {h : Halt w}
    (hstop : last.step task = .stopped h.machine h.reason h.fault) (hfinished : h.reason = .finished) :
    task.program[last.ip]? = none ∧ h = ⟨last.flush, .finished, none⟩ := by
  obtain ⟨machine, reason, fault⟩ := h
  obtain rfl : reason = .finished := hfinished
  rcases stop_cases hstop with ⟨hend, hf⟩ | ⟨n, given, hgive, -⟩
  · refine ⟨hend, ?_⟩
    rcases finish_cases last with ⟨-, hfinish⟩ | ⟨text, -, hfinish⟩
    · obtain ⟨rfl, -, rfl⟩ := Progress.stopped.inj (hfinish.symm.trans hf)
      rfl
    · cases hfinish.symm.trans hf
  · cases hgive

/-- **A sink with a limit gets exactly the first part.** Let a task end well on a sink that accepts everything, and take
what its output instructions have written then. On a sink that accepts only so many bytes the task halts too, and the
sink has accepted the first of these bytes, as many as there is room for. If there is room for all, nothing else
changes. If not, the task fails with a fault of input and output, the call that was cut short is the last one, at most
a buffer full of bytes was written and not accepted, and tape and input are those of a first part of the run. -/
theorem limited_sink_gets_first_part (task : Task) (tape : Tape w) (input : Input) (hinput : input.Calm) (opened : Sink)
    (hopened : opened.IsOpen) (s : Sink) (limit : Nat) (hplain : s.replies = []) (hlimit : s.limit = some limit)
    (hcalm : s.cancelAt ≤ s.writes.size) (h : Halt w) (hh : Halts task (fresh tape input (some opened) .clear) h)
    (hfinished : h.result.stop = .finished) :
    ∃ visited s', ∃ k : Halt w, HaltsAfter task (fresh tape input (some opened) .clear) visited h ∧
      Option.Rel (Sink.Took (outputs task visited)) (some opened) h.machine.outbox.sink ∧
      h.result.written = (outputs task visited).length ∧
      Halts task (fresh tape input (some s) .clear) k ∧ k.machine.outbox.sink = some s' ∧
      s'.delivered.toList = s.delivered.toList ++ (outputs task visited).take (limit - s.delivered.size) ∧
      ((outputs task visited).length ≤ limit - s.delivered.size →
        k = { h with machine := h.machine.withOutbox k.machine.outbox }) ∧
      (limit - s.delivered.size < (outputs task visited).length →
        k.CutOff task s limit (fresh tape input (some opened) .clear) visited) := by
  have hm : (fresh tape input (some opened) .clear).Calm :=
    ⟨rfl, hinput, fun t ht => by cases ht; exact hopened.calm⟩
  have ho : Outbox.Calm { sink := some s } := fun t ht => by cases ht; exact hcalm
  obtain ⟨visited, hafter⟩ := halts_iff.mp hh
  obtain ⟨htook, hwritten⟩ := took_halts (fun t ht => by cases ht; exact hopened.toAcceptsAll) hafter
  obtain ⟨last, hrun, hstop⟩ : ∃ last, Run task (fresh tape input (some opened) .clear) visited last ∧
      last.step task = .stopped h.machine h.reason h.fault := by
    cases hafter with
    | cancelled hraised => cases hraised
    | stopped _ hrun hstop => exact ⟨_, hrun, hstop⟩
  obtain ⟨hend, hlast⟩ := halt_of_finished hstop hfinished
  rcases hrun.follows_end hend hm ho with ⟨seen, o, hfollows, hnone, hstop'⟩ |
    ⟨before, n, seen, o, k, hbefore, hfollows, hstop', hrefused⟩
  · obtain ⟨hle, s', hs', hdelivered⟩ := hfollows.whole hplain hlimit hnone
    refine ⟨visited, s', ⟨_, _, _⟩, hafter, htook, hwritten, halts_iff.mpr ⟨seen, .stopped rfl hfollows.alike hstop'⟩,
      hs', ?_, fun _ => ?_, fun hlt => absurd hle (Nat.not_le.mpr hlt)⟩
    · rw [List.take_of_length_le hle, hdelivered]
    · rw [hlast]
      rfl
  · obtain ⟨hlt, ⟨s', hs', hdelivered⟩, hcutOff⟩ :=
      hfollows.cutOff hplain hlimit hopened.toAcceptsAll hstop' hrefused hbefore
    exact ⟨visited, s', k, hafter, htook, hwritten, halts_iff.mpr ⟨seen, .stopped rfl hfollows.alike hstop'⟩, hs',
      hdelivered, fun hle => absurd hlt (Nat.not_lt.mpr hle), fun _ => hcutOff⟩

/-- Of the bytes one, two and three a sink with room for two has the first two, and the third is told to be lost. -/
theorem limited_sink_gets_first_part_two :
    let task : Task := { program := #[0x2b, 0x2e, 0x2b, 0x2e, 0x2b, 0x2e], jumps := ⟨#[], 0⟩ }
    ∃ s', ∃ k : Halt 8, Halts task (fresh ⟨#[0], 0⟩ .absent (some { limit := some 3, delivered := #[9] }) .clear) k ∧
      k.machine.outbox.sink = some s' ∧ s'.delivered.toList = [9, 1, 2] ∧ k.result.stop = .failed ∧
      k.isA .io = true := by
  intro task
  have hopen : ((fresh ⟨#[(0 : BitVec 8)], 0⟩ .absent (some {}) .clear).launch task 7).map
      (fun h => (h.result.stop, h.machine.outbox.sink.map (·.delivered.toList))) =
      some (.finished, some [1, 2, 3]) := by
    decide +kernel
  obtain ⟨h, hlaunch, heq⟩ := Option.map_eq_some_iff.mp hopen
  obtain ⟨hfinished, hsink⟩ := Prod.mk.inj heq
  obtain ⟨visited, s', k, -, htook, -, hk, hs', hdelivered, -, hcut⟩ :=
    limited_sink_gets_first_part task ⟨#[(0 : BitVec 8)], 0⟩ .absent (fun s hs => by cases hs) {}
      ⟨⟨rfl, rfl⟩, Nat.le_refl 0⟩ { limit := some 3, delivered := #[9] } 3 rfl rfl (Nat.le_refl 0) h
      ⟨7, hlaunch⟩ hfinished
  have hout : outputs task visited = [1, 2, 3] := by
    generalize h.machine.outbox.sink = after at htook hsink
    cases htook with
    | some htook => exact htook.delivered.symm.trans (Option.some.inj hsink)
  rw [hout] at hdelivered hcut
  have hcutOff := hcut (by decide)
  exact ⟨s', k, hk, hs', hdelivered, hcutOff.stop, hcutOff.io⟩

end Machine
end TapeMachine
