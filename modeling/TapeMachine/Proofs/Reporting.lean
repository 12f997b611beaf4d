import TapeMachine.Proofs.Delivery
import TapeMachine.Proofs.LoopStack

/-! What a run that has stopped tells about its failures.

A sink may refuse bytes, and it may report a failure. Up to the first call that it does not accept whole, or
reports a failure of, it has accepted everything that was sent (`Sink.Accepted`); after that call the outbox
keeps a failure and makes no further call (`Sink.Refused`). `Outbox.Holds` says which of the two it is, and
a machine goes on only as long as it is the first.

So when a machine stops, its outbox has a failure exactly if a call has failed, and every way to stop turns
that failure, or the failure of a read, into a fault of input and output, whatever else it stopped for
(`Halt.Honest`). The exit code follows. -/
namespace TapeMachine
open Brackets

/-! ### Sinks that refuse bytes -/

/-- A sink that was `s₀` has since accepted `sent`: every call on it was accepted whole, and reported no
failure. -/
structure Sink.Accepted (sent : List UInt8) (s₀ s : Sink) : Prop where
  delivered : s.delivered.toList = s₀.delivered.toList ++ sent
  calls : ∃ calls, s.writes.toList = s₀.writes.toList ++ calls ∧ ∀ call ∈ calls, call.2 = call.1
  failures : s.failures = s₀.failures

/-- A sink that was `s₀` has since been offered `out`, and the last call on it is the only one that has failed:
it was accepted but for the bytes `lost`, or it was accepted whole and reported a failure. -/
def Sink.Refused (out : List UInt8) (s₀ s : Sink) : Prop :=
  ∃ sent lost calls last, out = sent ++ lost ∧ s.delivered.toList = s₀.delivered.toList ++ sent ∧
    s.writes.toList = s₀.writes.toList ++ (calls ++ [last]) ∧ (∀ call ∈ calls, call.2 = call.1) ∧
    last.2 + lost.length = last.1 ∧ (lost = [] → s.failures ≠ s₀.failures)

/-- The calls made on a sink since it was `before`: how many bytes were offered and how many accepted. -/
def callsSince (before after : Option Sink) : List (Nat × Nat) :=
  ((after.map (·.writes.toList)).getD []).drop ((before.map (·.writes.size)).getD 0)

/-- Some call on a sink since it was `before` was not accepted whole, or has reported a failure. -/
def CallFailed (before after : Option Sink) : Prop :=
  (∃ call ∈ callsSince before after, call.2 < call.1) ∨ after.map (·.failures) ≠ before.map (·.failures)

namespace Sink

theorem accepts_le (s : Sink) (n : Nat) : s.accepts n ≤ n := by
  unfold accepts
  split
  · exact Nat.min_le_left ..
  · exact Nat.le_refl n
  · exact Nat.min_le_left ..

theorem accepts_of_not_lt {s : Sink} {n : Nat} (h : ¬s.accepts n < n) : s.accepts n = n :=
  Nat.le_antisymm (s.accepts_le n) (Nat.le_of_not_lt h)

theorem Accepted.refl (s : Sink) : s.Accepted [] s :=
  ⟨(List.append_nil _).symm, ⟨[], (List.append_nil _).symm, fun _ hc => by cases hc⟩, rfl⟩

theorem Accepted.write {s₀ s : Sink} {sent : List UInt8} (h : Accepted sent s₀ s)
    (bytes : Array UInt8) (hwhole : s.accepts bytes.size = bytes.size) (hreports : s.reports bytes.size = none) :
    Accepted (sent ++ bytes.toList) s₀ (s.write bytes).2 := by
  obtain ⟨calls, hcalls, hwholes⟩ := h.calls
  refine ⟨by simp [Sink.write, hwhole, h.delivered], ?_, by simp [Sink.write, hreports, h.failures]⟩
  refine ⟨calls ++ [(bytes.size, bytes.size)], by simp [Sink.write, hwhole, hcalls], fun call hcall => ?_⟩
  rcases List.mem_append.mp hcall with hcall | hcall
  · exact hwholes call hcall
  · rw [List.mem_singleton.mp hcall]

theorem Accepted.refused {s₀ s : Sink} {sent : List UInt8} (h : Accepted sent s₀ s) (bytes : Array UInt8)
    (hfails : s.accepts bytes.size < bytes.size ∨ s.reports bytes.size ≠ none) :
    Refused (sent ++ bytes.toList) s₀ (s.write bytes).2 := by
  obtain ⟨calls, hcalls, hwholes⟩ := h.calls
  have hle := s.accepts_le bytes.size
  have hlost : (bytes.toList.drop (s.accepts bytes.size)).length = bytes.size - s.accepts bytes.size := by
    rw [List.length_drop, Array.length_toList]
  refine ⟨sent ++ bytes.toList.take (s.accepts bytes.size), bytes.toList.drop (s.accepts bytes.size),
    calls, (bytes.size, s.accepts bytes.size), ?_, ?_, ?_, hwholes, ?_, fun hnil => ?_⟩
  · rw [List.append_assoc, List.take_append_drop]
  · simp [Sink.write, h.delivered]
  · simp [Sink.write, hcalls]
  · show s.accepts bytes.size + _ = bytes.size
    omega
  · rw [hnil, List.length_nil] at hlost
    obtain ⟨text, htext⟩ := Option.ne_none_iff_exists'.mp (hfails.resolve_left (by omega))
    simp [Sink.write, htext, h.failures]

end Sink

theorem not_callFailed_of_accepted {before after : Option Sink} {sent : List UInt8}
    (h : Option.Rel (Sink.Accepted sent) before after) : ¬CallFailed before after := by
  rintro (⟨call, hcall, hlt⟩ | htold)
  · cases h with
    | none => cases hcall
    | some haccepted =>
      obtain ⟨calls, hcalls, hwholes⟩ := haccepted.calls
      simp only [callsSince, Option.map_some, Option.getD_some, hcalls] at hcall
      rw [List.drop_left' Array.length_toList] at hcall
      have := hwholes call hcall
      omega
  · cases h with
    | none => exact htold rfl
    | some haccepted => exact htold (congrArg some haccepted.failures)

theorem callFailed_of_refused {s₀ s : Sink} {out : List UInt8} (h : Sink.Refused out s₀ s) :
    CallFailed (some s₀) (some s) := by
  obtain ⟨sent, lost, calls, last, -, -, hcalls, -, hlast, htold⟩ := h
  cases lost with
  | nil => exact .inr fun heq => htold rfl (Option.some.inj heq)
  | cons b rest =>
    refine .inl ⟨last, ?_, ?_⟩
    · simp only [callsSince, Option.map_some, Option.getD_some, hcalls]
      rw [List.drop_left' Array.length_toList]
      exact List.mem_append_right _ (List.mem_singleton_self last)
    · rw [List.length_cons] at hlast
      omega

/-! ### The outbox in front of it -/

namespace Outbox

/-- Putting a byte flushes a full buffer first, and adds the byte unless that has failed. -/
theorem put_cases {o : Outbox} (hnone : o.failure = none) (b : UInt8) :
    ∃ o', (o' = o ∨ o' = o.flush) ∧
      ((o'.failure = none ∧ o.put b = { o' with buffer := o'.buffer.push b }) ∨
        (o'.failure ≠ none ∧ o.put b = o')) := by
  by_cases hfull : capacity ≤ o.buffer.size
  · refine ⟨o.flush, .inr rfl, ?_⟩
    cases hf : o.flush.failure with
    | none => exact .inl ⟨rfl, by simp [put, hnone, hfull, hf]⟩
    | some text => exact .inr ⟨by simp, by simp [put, hnone, hfull, hf]⟩
  · exact ⟨o, .inl rfl, .inl ⟨hnone, by simp [put, hnone, hfull]⟩⟩

/-- The outbox of the sink `sink₀` after `out` was put into it: without a failure the sink has accepted all
but what is in the buffer, with one a call on it has failed. -/
structure Holds (sink₀ : Option Sink) (out : List UInt8) (o : Outbox) : Prop where
  whole : o.failure = none → ∃ sent, out = sent ++ o.buffer.toList ∧
    Option.Rel (Sink.Accepted sent) sink₀ o.sink
  refused : o.failure ≠ none → ∃ s₀ s, sink₀ = some s₀ ∧ o.sink = some s ∧ Sink.Refused out s₀ s

namespace Holds
variable {sink₀ : Option Sink} {out : List UInt8} {o : Outbox}

theorem start (sink₀ : Option Sink) : Holds sink₀ [] { sink := sink₀ } := by
  refine ⟨fun _ => ⟨[], rfl, ?_⟩, fun hne => absurd rfl hne⟩
  cases sink₀ with
  | none => exact .none
  | some s => exact .some (.refl s)

theorem deliver (h : o.Holds sink₀ out) (hnone : o.failure = none) :
    o.deliver.Holds sink₀ out ∧ (o.deliver.failure = none → o.deliver.buffer = #[]) := by
  obtain ⟨sent, hout, hrel⟩ := h.whole hnone
  obtain ⟨sink, buffer, failure⟩ := o
  cases hrel with
  | none =>
    refine ⟨⟨fun _ => ⟨out, by simp [Outbox.deliver], .none⟩, fun hne => absurd hnone hne⟩, fun _ => rfl⟩
  | @some s₀ s haccepted =>
    subst hout
    by_cases hcut : s.accepts buffer.size < buffer.size
    · simp only [Outbox.deliver, if_pos hcut]
      exact ⟨⟨fun hnone => (by cases hnone), fun _ => ⟨s₀, _, rfl, rfl, haccepted.refused buffer (.inl hcut)⟩⟩,
        fun hnone => (by cases hnone)⟩
    · have hwhole := Sink.accepts_of_not_lt hcut
      simp only [Outbox.deliver, if_neg hcut]
      exact ⟨⟨fun hreports => ⟨_, (List.append_nil _).symm, .some (haccepted.write buffer hwhole hreports)⟩,
        fun hreports => ⟨s₀, _, rfl, rfl, haccepted.refused buffer (.inr hreports)⟩⟩, fun _ => trivial⟩

theorem flush (h : o.Holds sink₀ out) :
    o.flush.Holds sink₀ out ∧ (o.flush.failure = none → o.flush.buffer = #[]) := by
  unfold Outbox.flush
  split
  · next hidle =>
    refine ⟨h, fun hnone => ?_⟩
    rw [hnone, Option.isSome_none, Bool.false_or, Array.isEmpty_iff] at hidle
    exact hidle
  · next hbusy =>
    rw [Bool.or_eq_true, not_or, Option.not_isSome_iff_eq_none] at hbusy
    exact h.deliver hbusy.1

/-- A byte that is put comes after those before it; it is not taken if there is a failure then. -/
theorem put (h : o.Holds sink₀ out) (hnone : o.failure = none) (b : UInt8) :
    ((o.put b).failure = none → (o.put b).Holds sink₀ (out ++ [b])) ∧
      ((o.put b).failure ≠ none → (o.put b).Holds sink₀ out) := by
  obtain ⟨o', hroom, hput⟩ := put_cases hnone b
  have h' : o'.Holds sink₀ out := by
    rcases hroom with rfl | rfl
    · exact h
    · exact h.flush.1
  rcases hput with ⟨hf, hput⟩ | ⟨hf, hput⟩
  · obtain ⟨sent, hout, hrel⟩ := h'.whole hf
    rw [hput]
    exact ⟨fun _ => ⟨fun _ => ⟨sent, by simp [hout], hrel⟩, fun hne => absurd hf hne⟩,
      fun hne => absurd hf hne⟩
  · rw [hput]
    exact ⟨fun hf' => absurd hf' hf, fun _ => h'⟩

theorem callFailed_iff (h : o.Holds sink₀ out) : CallFailed sink₀ o.sink ↔ o.failure ≠ none := by
  constructor
  · intro hfailed hnone
    obtain ⟨sent, -, hrel⟩ := h.whole hnone
    exact not_callFailed_of_accepted hrel hfailed
  · intro hne
    obtain ⟨s₀, s, rfl, hs, hrefused⟩ := h.refused hne
    rw [hs]
    exact callFailed_of_refused hrefused

end Holds
end Outbox

theorem Outbox.flush_of_failure {o : Outbox} (h : o.failure ≠ none) : o.flush = o := by
  rw [flush, if_pos]
  rw [Option.isSome_iff_ne_none.mpr h, Bool.true_or]

namespace Machine
variable {w : Nat}

/-! ### Reads that fail -/

/-- The fault with which the next step fails to read: it reads, and gets neither a byte nor the end of the
input. -/
def readFault? (task : Task) (m : Machine w) : Option Fault :=
  (m.reading? task).bind fun r =>
    match r.input.readByte.1 with
    | .ok _ => none
    | .error fault => if fault.isA .endOfInput then none else some fault

theorem readFault?_of_reading? {task : Task} {m : Machine w} (h : m.reading? task = none) :
    m.readFault? task = none := by
  rw [readFault?, h]
  rfl

theorem readFault?_of_due {task : Task} {m : Machine w} {byte : UInt8} (hdue : m.due task = some byte)
    (hi : Instruction.ofByte? byte = some .input) (hf : m.outbox.flush.failure = none) :
    m.readFault? task =
      match m.counted.flush.take.1 with
      | .ok _ => none
      | .error fault => if fault.isA .endOfInput then none else some fault := by
  rw [readFault?, reading?_of_due hdue hi hf]
  rfl

theorem readFault?_of_running {task : Task} {m m' : Machine w} (h : m.step task = .running m') :
    m.readFault? task = none := by
  have hother {byte : UInt8} (hdue : m.due task = some byte)
      (hi : Instruction.ofByte? byte ≠ some .input) : m.readFault? task = none :=
    readFault?_of_reading? (reading?_of_other hdue hi)
  cases advances_of_running h with
  | shift hdue _ _ hi => exact hother hdue hi
  | write hdue hi => exact hother hdue (by rw [hi]; decide)
  | read hdue hi hf ht => simp only [readFault?_of_due hdue hi hf, ht]
  | ended hdue hi hf ht he => simp only [readFault?_of_due hdue hi hf, ht, he, if_true]
  | skip hdue => exact hother hdue (by decide)
  | enter hdue => exact hother hdue (by decide)
  | leave hdue => exact hother hdue (by decide)
  | back hdue => exact hother hdue (by decide)

/-! ### What a fault tells -/

/-- Whether a halt tells a fault of some kind. -/
def Halt.isA (h : Halt w) (kind : Kind) : Bool := h.fault.any (·.isA kind)

/-- A halt tells what happened, where `failing` says that input or output has failed: it has a fault unless
the program came to its end, and the kinds of the fault are the reasons. -/
structure Halt.Honest (failing : Prop) (h : Halt w) : Prop where
  fault_iff : h.fault = none ↔ h.result.stop = .finished
  stepLimit_iff : h.isA .stepLimit = true ↔ h.result.stop = .stepLimit
  interrupted_iff : h.isA .interrupted = true ↔ h.result.stop = .interrupted
  io_iff : h.isA .io = true ↔ failing
  failed : h.result.stop = .failed → h.isA .io = true ∨ h.isA .unbalancedBrackets = true
  not_endOfInput : h.isA .endOfInput = false
  not_invalidOptions : h.isA .invalidOptions = false

/-- The kinds of fault that a run is given up with, by the reason for which it stops. -/
inductive Suits : StopReason → Kind → Prop
  | spent : Suits .stepLimit .stepLimit
  | raised : Suits .interrupted .interrupted
  | io : Suits .failed .io
  | brackets : Suits .failed .unbalancedBrackets

/-- Giving up adds the failure to send what was collected, if there is one. -/
theorem isA_of_abort {m : Machine w} {reason : StopReason} {kind : Kind} {cause : Cause} {h : Halt w}
    (habort : m.abort reason (.caused kind cause) = .stopped h.machine h.reason h.fault) (k : Kind) :
    h.isA k = (kind == k || (k == .io && m.flush.outbox.failure.isSome)) := by
  cases hf : m.flush.outbox.failure with
  | none =>
    simp only [abort, hf] at habort
    rw [Halt.isA, ← (Progress.stopped.inj habort).2.2]
    simp [Fault.isA]
  | some text =>
    simp only [abort, hf] at habort
    rw [Halt.isA, ← (Progress.stopped.inj habort).2.2]
    cases kind <;> cases k <;> rfl

theorem honest_of_abort {m : Machine w} {reason : StopReason} {kind : Kind} {cause : Cause} {h : Halt w}
    (habort : m.abort reason (.caused kind cause) = .stopped h.machine h.reason h.fault)
    (hsuits : Suits reason kind) : h.Honest (kind = .io ∨ m.flush.outbox.failure ≠ none) := by
  have hisA := isA_of_abort habort
  have hreason : h.result.stop = reason := (machine_of_abort habort).2
  have hsome : h.fault ≠ none := by
    obtain ⟨told, htold, -⟩ := abort_eq m reason (.caused kind cause)
    rw [← (Progress.stopped.inj (htold.symm.trans habort)).2.2]
    simp
  have hio : h.isA .io = true ↔ kind = .io ∨ m.flush.outbox.failure ≠ none := by
    simp [hisA, Option.isSome_iff_ne_none]
  cases hsuits <;>
    exact ⟨by simp [hsome, hreason], by simp [hisA, hreason], by simp [hisA, hreason], hio,
      by simp [hisA, hreason], by simp [hisA], by simp [hisA]⟩

theorem honest_of_finish {m : Machine w} {h : Halt w}
    (hfinish : m.finish = .stopped h.machine h.reason h.fault) :
    h.Honest (m.flush.outbox.failure ≠ none) := by
  rcases finish_cases m with ⟨hf, hm⟩ | ⟨text, hf, hm⟩
  · obtain ⟨-, hreason, hfault⟩ := Progress.stopped.inj (hm.symm.trans hfinish)
    have hisA (k : Kind) : h.isA k = false := by rw [Halt.isA, ← hfault]; rfl
    exact ⟨by simp [← hfault, Halt.result, ← hreason], by simp [hisA, Halt.result, ← hreason],
      by simp [hisA, Halt.result, ← hreason], by simp [hisA, hf],
      by simp [Halt.result, ← hreason], hisA _, hisA _⟩
  · obtain ⟨-, hreason, hfault⟩ := Progress.stopped.inj (hm.symm.trans hfinish)
    have hisA (k : Kind) : h.isA k = (Kind.io == k) := by
      rw [Halt.isA, ← hfault]
      rfl
    exact ⟨by simp [← hfault, Halt.result, ← hreason], by simp [hisA, Halt.result, ← hreason],
      by simp [hisA, Halt.result, ← hreason], by simp [hisA, hf],
      by simp [hisA, Halt.result, ← hreason], by simp [hisA], by simp [hisA]⟩

/-! ### Whole runs -/

/-- A task halts as `h` after executing one instruction on each of the machines `visited`. The step that
stops it is tried on `last`; there is none if the signal was raised before the start. -/
inductive HaltsAt (task : Task) (m : Machine w) :
    List (Machine w) → Option (Machine w) → Halt w → Prop
  | cancelled {reason : String} {h : Halt w} : m.signal = .raised reason →
      m.abort .interrupted (.caused .interrupted (.cancelled reason)) =
        .stopped h.machine h.reason h.fault → HaltsAt task m [] none h
  | stopped {visited : List (Machine w)} {last : Machine w} {h : Halt w} : m.signal.isRaised = false →
      Run task m visited last → last.step task = .stopped h.machine h.reason h.fault →
      HaltsAt task m visited (some last) h

theorem Halts.exists_haltsAt {task : Task} {m : Machine w} {h : Halt w} (hh : Halts task m h) :
    ∃ visited last, HaltsAt task m visited last h := by
  obtain ⟨visited, hafter⟩ := halts_iff.mp hh
  cases hafter with
  | cancelled hraised hstop => exact ⟨[], none, .cancelled hraised hstop⟩
  | @stopped _ last _ hquiet hrun hstop => exact ⟨visited, some last, .stopped hquiet hrun hstop⟩

/-- Some call on the sink was not accepted whole, or has reported a failure. -/
def Halt.WriteFailed (sink : Option Sink) (h : Halt w) : Prop := CallFailed sink h.machine.outbox.sink

/-- Some step that was tried has failed to read. -/
def ReadFailed (task : Task) (visited : List (Machine w)) (last : Option (Machine w)) : Prop :=
  ∃ m ∈ visited ++ last.toList, m.readFault? task ≠ none

/-- The run came to the end of the program. -/
def Ended (task : Task) (last : Option (Machine w)) : Prop :=
  ∃ m, last = some m ∧ task.program[m.ip]? = none

/-- The sink has accepted all that the output instructions have written, and has reported no failure. -/
def Halt.AcceptedAll (task : Task) (sink : Option Sink) (visited : List (Machine w)) (h : Halt w) : Prop :=
  Option.Rel (fun s₀ s => s.delivered.toList = s₀.delivered.toList ++ outputs task visited ∧
    s.failures = s₀.failures) sink h.machine.outbox.sink

/-- A machine goes on only while its outbox has no failure. -/
theorem holds_of_running {task : Task} {sink : Option Sink} {visited : List (Machine w)}
    {m m' : Machine w} (h : m.outbox.Holds sink (outputs task visited)) (hnone : m.outbox.failure = none)
    (hstep : m.step task = .running m') :
    m'.outbox.Holds sink (outputs task (visited ++ [m])) ∧ m'.outbox.failure = none := by
  have hkeep : m.isAt task .output = false → m.outbox.Holds sink (outputs task (visited ++ [m])) := by
    intro hat
    rw [outputs_append_other visited hat]
    exact h
  have hflush : m.isAt task .output = false →
      m.outbox.flush.Holds sink (outputs task (visited ++ [m])) := by
    intro hat
    rw [outputs_append_other visited hat]
    exact h.flush.1
  have hother {byte : UInt8} (hdue : m.due task = some byte)
      (hi : Instruction.ofByte? byte ≠ some .output) : m.isAt task .output = false := by
    rw [← Bool.not_eq_true, isAt_of_due hdue]
    exact hi
  cases advances_of_running hstep with
  | shift hdue _ hi => exact ⟨hkeep (hother hdue hi), hnone⟩
  | write hdue hi hf =>
    rw [outputs_append_output visited ((isAt_of_due hdue _).mpr hi)]
    exact ⟨(h.put hnone _).1 hf, hf⟩
  | read hdue hi hf => exact ⟨hflush (hother hdue (by rw [hi]; decide)), hf⟩
  | ended hdue hi hf => exact ⟨hflush (hother hdue (by rw [hi]; decide)), hf⟩
  | skip hdue => exact ⟨hkeep (hother hdue (by decide)), hnone⟩
  | enter hdue => exact ⟨hkeep (hother hdue (by decide)), hnone⟩
  | leave hdue => exact ⟨hkeep (hother hdue (by decide)), hnone⟩
  | back hdue => exact ⟨hkeep (hother hdue (by decide)), hnone⟩

theorem holds_run {task : Task} {tape : Tape w} {input : Input} {sink : Option Sink} {signal : Signal}
    {visited : List (Machine w)} {m : Machine w}
    (hrun : Run task (fresh tape input sink signal) visited m) :
    m.outbox.Holds sink (outputs task visited) ∧ m.outbox.failure = none :=
  hrun.invariant (P := fun before n =>
    n.outbox.Holds sink (outputs task before) ∧ n.outbox.failure = none) ⟨.start sink, rfl⟩
    (fun _ _ _ hn hstep => holds_of_running hn.1 hn.2 hstep)

theorem Halt.Honest.congr {p q : Prop} {h : Halt w} (hh : h.Honest p) (hpq : p ↔ q) : h.Honest q :=
  propext hpq ▸ hh

/-- A run that is given up tells of its failure to send what was collected, and of that to read. -/
theorem honest_of_givesUp {task : Task} {m n : Machine w} {reason : StopReason} {given : Fault}
    {h : Halt w} (hgive : GivesUp task m n reason given)
    (habort : n.abort reason given = .stopped h.machine h.reason h.fault) :
    h.Honest (n.flush.outbox.failure ≠ none ∨ m.readFault? task ≠ none) := by
  have hquiet {byte : UInt8} (hdue : m.due task = some byte)
      (hi : Instruction.ofByte? byte ≠ some .input) : m.readFault? task = none :=
    readFault?_of_reading? (reading?_of_other hdue hi)
  have hidle (hdue : m.due task = none) : m.readFault? task = none :=
    readFault?_of_reading? (reading?_of_not_due hdue)
  cases hgive with
  | spent _ hspent =>
    exact (honest_of_abort habort .spent).congr (by simp [hidle (by simp [due, hspent])])
  | interrupted _ _ hraised =>
    exact (honest_of_abort habort .raised).congr (by simp [hidle (by simp [due, hraised])])
  | writing hdue hi hf =>
    have hbox : (m.counted.send (·.put m.tape.byte)).flush.outbox = m.outbox.put m.tape.byte :=
      Outbox.flush_of_failure (show (m.outbox.put m.tape.byte).failure ≠ none by simp [hf])
    exact (honest_of_abort habort .io).congr (by simp [hbox, hf])
  | flushing hdue hi hf =>
    have hbox : m.counted.flush.flush.outbox = m.outbox.flush :=
      Outbox.flush_of_failure (show m.outbox.flush.failure ≠ none by simp [hf])
    exact (honest_of_abort habort .io).congr (by simp [hbox, hf])
  | reading hdue hi hf ht he =>
    have hread : m.readFault? task ≠ none := by simp [readFault?_of_due hdue hi hf, ht, he]
    exact (honest_of_abort habort .io).congr (by simp [hread])
  | unrecorded hdue =>
    exact (honest_of_abort habort .brackets).congr (by simp [hquiet hdue (by decide)])
  | stray hdue =>
    exact (honest_of_abort habort .brackets).congr (by simp [hquiet hdue (by decide)])

theorem holds_of_givesUp {task : Task} {sink : Option Sink} {out : List UInt8} {m n : Machine w}
    {reason : StopReason} {given : Fault} (hgive : GivesUp task m n reason given)
    (hholds : m.outbox.Holds sink out) (hnone : m.outbox.failure = none) :
    n.flush.outbox.Holds sink out ∧ (n.flush.outbox.failure = none → n.flush.outbox.buffer = #[]) := by
  cases hgive with
  | spent => exact hholds.flush
  | interrupted => exact hholds.flush
  | writing hdue hi hf =>
    exact ((hholds.put hnone m.tape.byte).2 (by simp [hf])).flush
  | flushing => exact hholds.flush.1.flush
  | reading => exact hholds.flush.1.flush
  | unrecorded => exact hholds.flush
  | stray => exact hholds.flush

/-- A step that stops leaves the outbox flushed, and tells of its failure and of that to read. -/
theorem honest_of_stopped {task : Task} {sink : Option Sink} {out : List UInt8} {m : Machine w}
    {h : Halt w} (hholds : m.outbox.Holds sink out) (hnone : m.outbox.failure = none)
    (hstop : m.step task = .stopped h.machine h.reason h.fault) :
    h.Honest (h.machine.outbox.failure ≠ none ∨ m.readFault? task ≠ none) ∧
      h.machine.outbox.Holds sink out ∧
      (h.machine.outbox.failure = none → h.machine.outbox.buffer = #[]) := by
  rcases stop_cases hstop with ⟨hend, hf⟩ | ⟨n, given, hgive, habort⟩
  · have hread : m.readFault? task = none :=
      readFault?_of_reading? (reading?_of_not_due (by simp [due, hend]))
    rw [machine_of_finish hf]
    exact ⟨(honest_of_finish hf).congr (by simp [hread]), hholds.flush⟩
  · rw [(machine_of_abort habort).1]
    exact ⟨honest_of_givesUp hgive habort, holds_of_givesUp hgive hholds hnone⟩

/-- A machine on which an instruction was executed has gone on. -/
theorem Run.running_of_mem {task : Task} {m m' k : Machine w} {visited : List (Machine w)}
    (h : Run task m visited m') (hk : k ∈ visited) : ∃ k', k.step task = .running k' := by
  induction h with
  | nil => cases hk
  | cons hstep _ ih =>
    rcases List.mem_cons.mp hk with rfl | hk
    · exact ⟨_, hstep⟩
    · exact ih hk

namespace HaltsAt
variable {task : Task} {m : Machine w} {visited : List (Machine w)} {last : Option (Machine w)}
  {h : Halt w}

/-- No read has failed but that of the last step, as all others have gone on. -/
theorem readFailed_iff (hat : HaltsAt task m visited last h) :
    ReadFailed task visited last ↔ ∃ n, last = some n ∧ n.readFault? task ≠ none := by
  cases hat with
  | cancelled => simp [ReadFailed]
  | @stopped _ n _ _ hrun =>
    constructor
    · intro hex
      obtain ⟨k, hk, hfault⟩ := hex
      rcases List.mem_append.mp hk with hk | hk
      · obtain ⟨k', hstep⟩ := hrun.running_of_mem hk
        exact absurd (readFault?_of_running hstep) hfault
      · obtain rfl := List.mem_singleton.mp hk
        exact ⟨k, rfl, hfault⟩
    · intro hex
      obtain ⟨k, hk, hfault⟩ := hex
      obtain rfl := Option.some.inj hk
      exact ⟨n, List.mem_append_right _ (List.mem_singleton_self n), hfault⟩

theorem ended_of_finished (hat : HaltsAt task m visited last h) (hfin : h.reason = .finished) :
    Ended task last := by
  cases hat with
  | cancelled _ hstop =>
    rw [(machine_of_abort hstop).2] at hfin
    cases hfin
  | @stopped _ n _ _ _ hstop =>
    rw [hfin] at hstop
    rcases stop_cases hstop with ⟨hend, -⟩ | ⟨k, given, hgive, -⟩
    · exact ⟨n, rfl, hend⟩
    · cases hgive

/-- A read that has failed is the reason to stop. -/
theorem failed_of_readFailed (hat : HaltsAt task m visited last h)
    (hread : ReadFailed task visited last) : h.reason = .failed := by
  obtain ⟨n, rfl, hfault⟩ := hat.readFailed_iff.mp hread
  have hdue : n.due task ≠ none := fun hnone =>
    hfault (readFault?_of_reading? (reading?_of_not_due hnone))
  obtain ⟨machine, reason, fault⟩ := h
  cases hat with
  | stopped _ _ hstop =>
    rcases stop_cases hstop with ⟨hend, -⟩ | ⟨k, given, hgive, -⟩
    · exact absurd (by simp [due, hend]) hdue
    · cases hgive with
      | spent _ hspent => exact absurd (by simp [due, hspent]) hdue
      | interrupted _ _ hraised => exact absurd (by simp [due, hraised]) hdue
      | writing => rfl
      | flushing => rfl
      | reading => rfl
      | unrecorded => rfl
      | stray => rfl

variable {tape : Tape w} {input : Input} {sink : Option Sink} {signal : Signal}
  (hat : HaltsAt task (fresh tape input sink signal) visited last h)
include hat

/-- A program that runs with its own table meets no bracket without its partner. -/
theorem balanced (hresolve : resolve task.program = .ok task.jumps) :
    h.isA .unbalancedBrackets = false := by
  obtain ⟨t, ht, -, -, hjumps⟩ := exists_tree hresolve
  cases hat with
  | cancelled _ hstop =>
    rw [isA_of_abort hstop]
    rfl
  | stopped _ hrun hstop =>
    have hopen := openAt_run ht hjumps (OpenAt.start t) hrun
    cases hf : h.fault with
    | none => rw [Halt.isA, hf, Option.any_none]
    | some fault =>
      rw [hf] at hstop
      rw [Halt.isA, hf, Option.any_some]
      exact balanced_of_stopped ht hjumps hopen hstop

/-- When a run has stopped, its outbox is flushed or has failed, and the halt tells which. -/
theorem holds : h.machine.outbox.Holds sink (outputs task visited) ∧
    (h.machine.outbox.failure = none → h.machine.outbox.buffer = #[]) ∧
    h.Honest (h.WriteFailed sink ∨ ReadFailed task visited last) := by
  have hread := hat.readFailed_iff
  cases hat with
  | cancelled _ hstop =>
    have hhonest := honest_of_abort hstop .raised
    obtain ⟨hholds, hempty⟩ := (Outbox.Holds.start sink).flush
    have hfailed := hholds.callFailed_iff
    rw [Halt.WriteFailed, (machine_of_abort hstop).1]
    exact ⟨hholds, hempty, hhonest.congr (by simp [hread, hfailed, fresh, flush, send])⟩
  | @stopped _ n _ _ hrun hstop =>
    obtain ⟨hn, hnone⟩ := holds_run hrun
    obtain ⟨hhonest, hholds, hempty⟩ := honest_of_stopped hn hnone hstop
    refine ⟨hholds, hempty, hhonest.congr ?_⟩
    rw [Halt.WriteFailed, hholds.callFailed_iff, hread]
    simp

/-- What the program has written was all accepted, without a failure, exactly if no call has failed. -/
theorem acceptedAll_iff : h.AcceptedAll task sink visited ↔ ¬h.WriteFailed sink := by
  obtain ⟨hholds, hempty, -⟩ := hat.holds
  rw [Halt.WriteFailed, hholds.callFailed_iff]
  constructor
  · intro haccepted hne
    obtain ⟨s₀, s, hs₀, hs, sent, lost, -, -, hout, hdelivered, -, -, -, htold⟩ := hholds.refused hne
    rw [Halt.AcceptedAll, hs₀, hs] at haccepted
    cases haccepted with
    | some hall =>
      obtain ⟨hall, hfailures⟩ := hall
      rw [hdelivered, hout, List.append_cancel_left_eq] at hall
      exact htold (List.append_right_eq_self.mp hall.symm) hfailures
  · intro hhealthy
    have hnone := Decidable.not_not.mp hhealthy
    obtain ⟨sent, hout, hrel⟩ := hholds.whole hnone
    rw [hempty hnone, Array.toList_empty, List.append_nil] at hout
    subst hout
    unfold Halt.AcceptedAll
    generalize h.machine.outbox.sink = after at hrel ⊢
    cases hrel with
    | none => exact .none
    | some haccepted => exact .some ⟨haccepted.delivered, haccepted.failures⟩

/-- At the end of the program a run ends well, unless output is refused. -/
theorem finished_iff :
    h.reason = .finished ↔ Ended task last ∧ h.AcceptedAll task sink visited := by
  have haccepted := hat.acceptedAll_iff
  obtain ⟨-, -, hhonest⟩ := hat.holds
  rw [haccepted]
  constructor
  · intro hfin
    refine ⟨hat.ended_of_finished hfin, fun hwrite => ?_⟩
    have hio := hhonest.io_iff.mpr (.inl hwrite)
    rw [Halt.isA, hhonest.fault_iff.mpr hfin] at hio
    cases hio
  · intro hend
    obtain ⟨⟨n, rfl, hend⟩, hwrite⟩ := hend
    cases hat with
    | stopped _ hrun hstop =>
      rw [step, hend] at hstop
      rcases finish_cases n with ⟨-, hf⟩ | ⟨text, hf, hfinish⟩
      · exact (Progress.stopped.inj (hf.symm.trans hstop)).2.1.symm
      · obtain ⟨hn, -⟩ := holds_run hrun
        rw [Halt.WriteFailed, machine_of_finish hstop] at hwrite
        exact absurd (hn.flush.1.callFailed_iff.mpr (by show n.flush.outbox.failure ≠ none; simp [hf])) hwrite

end HaltsAt

theorem Halt.Honest.exitCode {failing : Prop} {h : Halt w} (hh : h.Honest failing)
    (hbalanced : h.isA .unbalancedBrackets = false) :
    (exitCode h.fault = 0 ↔ h.result.stop = .finished) ∧ (exitCode h.fault = 4 ↔ failing) ∧
      (exitCode h.fault = 5 ↔
        (h.result.stop = .stepLimit ∨ h.result.stop = .interrupted) ∧ ¬failing) := by
  rw [← hh.io_iff, ← hh.stepLimit_iff, ← hh.interrupted_iff, ← hh.fault_iff]
  have hoptions := hh.not_invalidOptions
  unfold Halt.isA at hbalanced hoptions ⊢
  cases hf : h.fault with
  | none => simp [TapeMachine.exitCode]
  | some fault =>
    rw [hf] at hbalanced hoptions
    simp only [Option.any_some] at hbalanced hoptions ⊢
    simp only [TapeMachine.exitCode, hoptions, hbalanced, Bool.false_eq_true, if_false]
    cases hio : fault.isA .io with
    | true => simp
    | false =>
      cases hlimit : fault.isA .stepLimit <;> cases hraised : fault.isA .interrupted <;> simp

/-- **No failure is swallowed or misreported.** However a task halts, whatever table, tape, input, sink and
signal it runs with, it has a fault unless the program came to its end, and the kinds of that fault say
exactly what went wrong: the step limit, the signal, a write that was cut short or reported a failure, a read
that failed. The exit code of a program that runs with its own table follows from what happened alone. -/
theorem failures_reported (task : Task) (tape : Tape w) (input : Input) (sink : Option Sink)
    (signal : Signal) (h : Halt w) (hh : Halts task (fresh tape input sink signal) h) :
    ∃ visited last, HaltsAt task (fresh tape input sink signal) visited last h ∧
      h.Honest (h.WriteFailed sink ∨ ReadFailed task visited last) ∧
      (resolve task.program = .ok task.jumps →
        (exitCode h.fault = 0 ↔ Ended task last ∧ h.AcceptedAll task sink visited) ∧
        (exitCode h.fault = 4 ↔ h.WriteFailed sink ∨ ReadFailed task visited last) ∧
        (exitCode h.fault = 5 ↔ (h.result.stop = .stepLimit ∨ h.result.stop = .interrupted) ∧
          h.AcceptedAll task sink visited)) := by
  obtain ⟨visited, last, hat⟩ := hh.exists_haltsAt
  obtain ⟨-, -, hhonest⟩ := hat.holds
  refine ⟨visited, last, hat, hhonest, fun hresolve => ?_⟩
  obtain ⟨hzero, hfour, hfive⟩ := hhonest.exitCode (hat.balanced hresolve)
  refine ⟨hzero.trans hat.finished_iff, hfour, hfive.trans (and_congr_right fun hstop => ?_)⟩
  rw [hat.acceptedAll_iff]
  refine ⟨fun hnot hwrite => hnot (.inl hwrite), fun hwrite hfailed => ?_⟩
  rcases hfailed with hfailed | hread
  · exact hwrite hfailed
  · rw [show h.result.stop = .failed from hat.failed_of_readFailed hread] at hstop
    rcases hstop with hstop | hstop <;> cases hstop

/-- A program that writes a byte and is not allowed its second instruction. -/
def writeOnce : Task := { program := #[0x2e, 0x2b], jumps := ⟨#[none, none], 0⟩, limit := some 1 }

/-- How it halts if the only call on its sink fails, which leaves `s`, and `left` in the buffer. -/
def unwritten (s : Sink) (left : Array UInt8) : Halt 8 where
  machine :=
    { tape := ⟨#[65], 0⟩, input := .absent, outbox := ⟨some s, left, some "broken pipe"⟩
      ip := 1, steps := 1, written := 1 }
  reason := .stepLimit
  fault := some (.both (.caused .stepLimit (.stepsExecuted 1 1)) (.caused .io (.flushing "broken pipe")))

/-- At the step limit, with a sink that takes nothing, or one that takes all and reports a failure: the limit is told,
and so is the failure to write. -/
theorem failures_reported_refused :
    (∃ h : Halt 8, Halts writeOnce (fresh ⟨#[65], 0⟩ .absent (some { limit := some 0 }) .clear) h ∧
      h.machine.outbox.sink.map (·.delivered) = some #[] ∧
      h.result = { steps := 1, written := 1, stop := .stepLimit } ∧
      h.isA .stepLimit = true ∧ h.isA .io = true ∧ exitCode h.fault = 4) ∧
    ∃ h : Halt 8, Halts writeOnce
        (fresh ⟨#[65], 0⟩ .absent (some { replies := [⟨1, some "broken pipe"⟩] }) .clear) h ∧
      h.machine.outbox.sink.map (·.delivered) = some #[65] ∧
      h.result = { steps := 1, written := 1, stop := .stepLimit } ∧
      h.isA .stepLimit = true ∧ h.isA .io = true ∧ exitCode h.fault = 4 := by
  have htold {s s' : Sink} {left : Array UInt8} (hfailed : CallFailed (some s) (some s'))
      (hh : Halts writeOnce (fresh ⟨#[65], 0⟩ .absent (some s) .clear) (unwritten s' left)) :
      (unwritten s' left).isA .stepLimit = true ∧ (unwritten s' left).isA .io = true ∧
        exitCode (unwritten s' left).fault = 4 := by
    obtain ⟨visited, last, -, hhonest, hcodes⟩ := failures_reported _ _ _ _ _ _ hh
    obtain ⟨-, hfour, -⟩ := hcodes rfl
    exact ⟨hhonest.stepLimit_iff.mpr rfl, hhonest.io_iff.mpr (.inl hfailed), hfour.mpr (.inl hfailed)⟩
  constructor
  · have hh : Halts writeOnce (fresh ⟨#[65], 0⟩ .absent (some { limit := some 0 }) .clear)
        (unwritten { limit := some 0, writes := #[(1, 0)], failures := ["broken pipe"] } #[65]) := ⟨2, rfl⟩
    exact ⟨_, hh, rfl, rfl, htold (.inl ⟨(1, 0), by decide, by decide⟩) hh⟩
  · have hh : Halts writeOnce (fresh ⟨#[65], 0⟩ .absent (some { replies := [⟨1, some "broken pipe"⟩] }) .clear)
        (unwritten { delivered := #[65], writes := #[(1, 1)], failures := ["broken pipe"] } #[]) := ⟨2, rfl⟩
    exact ⟨_, hh, rfl, rfl, htold (.inr (by decide)) hh⟩

end Machine
end TapeMachine
