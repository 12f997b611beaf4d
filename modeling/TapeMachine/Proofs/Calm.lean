import TapeMachine.Proofs.Delivery
import TapeMachine.Proofs.Future

/-! Streams that cancel nothing.

A stream is calm once the call that would cancel the turn lies in the past. Calls on a calm stream leave it calm, so a
machine on calm streams whose signal is clear never sees it raised: every step keeps the calm, whether it goes on or
stops the run. -/
namespace TapeMachine

/-! ### Streams -/

/-- No call still to be made on the input cancels the turn. -/
def Input.Calm (i : Input) : Prop := ∀ s, i.source? = some s → s.cancelAt ≤ s.calls

theorem Input.Calm.readByte {i : Input} (h : i.Calm) :
    i.readByte.2.Calm ∧ i.readByte.2.hasCancelledSince i.calls = false := by
  -- Whatever is called, the calls grow and the one that cancels stays.
  have hcalm {s s' : Source} (hs : s.cancelAt ≤ s.calls) (hsince : Source.AlikeSince s s s' s') :
      s'.cancelAt ≤ s'.calls ∧ s'.hasCancelledSince s.calls = false := by
    obtain ⟨made, hcalls, -⟩ := hsince.calls
    have hsame := hsince.cancelAt.1
    refine ⟨by omega, ?_⟩
    simp only [Source.hasCancelledSince, Bool.and_eq_false_iff, decide_eq_false_iff_not]
    omega
  cases i with
  | absent => exact ⟨h, rfl⟩
  | plain s =>
    obtain ⟨hlater, hbit⟩ := hcalm (h s rfl) (Source.Alike.refl s).readByte.2
    exact ⟨fun t ht => (by obtain rfl := Option.some.inj ht; exact hlater), hbit⟩
  | single s =>
    obtain ⟨hlater, hbit⟩ := hcalm (h s rfl) (Source.Alike.refl s).readOnce.2
    exact ⟨fun t ht => (by obtain rfl := Option.some.inj ht; exact hlater), hbit⟩
  | buffered f =>
    have hself : f.Alike f := ⟨.refl f.source, rfl, rfl⟩
    obtain ⟨hlater, hbit⟩ := hcalm (h f.source rfl) hself.readByte.2.2
    exact ⟨fun t ht => (by obtain rfl := Option.some.inj ht; exact hlater), hbit⟩

/-- A sink that accepts everything, and none of whose further calls cancels the turn. -/
structure Sink.IsOpen (s : Sink) : Prop extends s.AcceptsAll where
  calm : s.cancelAt ≤ s.writes.size

namespace Outbox

/-- No call still to be made on the sink cancels the turn, whether it accepts what it is offered or not. -/
def Calm (o : Outbox) : Prop := ∀ s, o.sink = some s → s.cancelAt ≤ s.writes.size

theorem AlikeSince.refl (o : Outbox) : AlikeSince o.sink o.sink o o :=
  ⟨rfl, rfl, .refl (Sink.Alike.refl? o.sink)⟩

/-- An operation that calls the sink as it would call one with the same future leaves it calm. -/
theorem Calm.act {act : Outbox → Outbox} {o : Outbox} (h : o.Calm) (hact : ActsAlike act o o) :
    (act o).Calm ∧ (act o).hasCancelledSince o.calls = false := by
  have hsinks := hact.sinks
  unfold Calm hasCancelledSince calls at *
  generalize (act o).sink = t at hsinks ⊢
  generalize o.sink = s at hsinks h ⊢
  cases hsinks with
  | none => exact ⟨fun _ ht => (by cases ht), rfl⟩
  | @some s _ t _ hsince =>
    have hcalm := h s rfl
    obtain ⟨calls, hcalls, -⟩ := hsince.writes
    have hsame := hsince.cancelAt.1
    have hsize : t.writes.size = s.writes.size + calls.size := by rw [hcalls, Array.size_append]
    refine ⟨fun r hr => ?_, ?_⟩
    · obtain rfl := Option.some.inj hr
      omega
    · simp only [Option.map_some, Option.getD_some, Sink.hasCancelledSince, Bool.and_eq_false_iff,
        decide_eq_false_iff_not]
      omega

theorem Calm.flush {o : Outbox} (h : o.Calm) : o.flush.Calm ∧ o.flush.hasCancelledSince o.calls = false :=
  h.act (AlikeSince.refl o).flush

theorem Calm.put {o : Outbox} (h : o.Calm) (b : UInt8) :
    (o.put b).Calm ∧ (o.put b).hasCancelledSince o.calls = false :=
  h.act ((AlikeSince.refl o).put b)

section
variable {sink₀ sink₁ : Option Sink} (h₀ : ∀ s, sink₀ = some s → s.IsOpen) (h₁ : ∀ s, sink₁ = some s → s.IsOpen)
include h₀ h₁

/-- Outboxes in front of open sinks that carry the same, one of them after `pre`, go on to do so. -/
theorem keeps_put {lead : Lead} (pre : List UInt8) (b : UInt8) :
    Keeps lead (fun o p => ∃ out, o.Carries sink₁ out ∧ p.Carries sink₀ (pre ++ out)) (·.put b) where
  related h := by
    obtain ⟨out, ho, hp⟩ := h
    refine ⟨out ++ [b], ho.put b, ?_⟩
    rw [← List.append_assoc]
    exact hp.put b
  hears h := by
    obtain ⟨out, ho, hp⟩ := h
    have ho' := ho.not_cancelled (ho.put b) (fun s hs => (h₁ s hs).calm)
    have hp' := hp.not_cancelled (hp.put b) (fun s hs => (h₀ s hs).calm)
    exact ⟨hp'.trans ho'.symm, fun _ => ho'⟩

theorem keeps_flush {lead : Lead} (pre : List UInt8) :
    Keeps lead (fun o p => ∃ out, o.Carries sink₁ out ∧ p.Carries sink₀ (pre ++ out)) Outbox.flush where
  related h := by
    obtain ⟨out, ho, hp⟩ := h
    exact ⟨out, ho.flush.1, hp.flush.1⟩
  hears h := by
    obtain ⟨out, ho, hp⟩ := h
    have ho' := ho.not_cancelled ho.flush.1 (fun s hs => (h₁ s hs).calm)
    have hp' := hp.not_cancelled hp.flush.1 (fun s hs => (h₀ s hs).calm)
    exact ⟨hp'.trans ho'.symm, fun _ => ho'⟩

end

end Outbox

/-! ### Machines -/

namespace Machine
variable {w : Nat} {task : Task} {m m' : Machine w}

/-- A machine that nothing has cancelled, and nothing will. -/
structure Calm (m : Machine w) : Prop where
  signal : m.signal = .clear
  input : m.input.Calm
  outbox : m.outbox.Calm

theorem Calm.counted (h : m.Calm) : m.counted.Calm := ⟨congrArg Signal.advance h.signal, h.input, h.outbox⟩

theorem Calm.send (h : m.Calm) (act : Outbox → Outbox)
    (hact : (act m.outbox).Calm ∧ (act m.outbox).hasCancelledSince m.outbox.calls = false) : (m.send act).Calm := by
  refine ⟨?_, h.input, hact.1⟩
  simp only [Machine.send, h.signal, hact.2]
  rfl

theorem Calm.flush (h : m.Calm) : m.flush.Calm := h.send Outbox.flush h.outbox.flush

theorem Calm.take (h : m.Calm) : m.take.2.Calm := by
  obtain ⟨hinput, hbit⟩ := h.input.readByte
  refine ⟨?_, hinput, h.outbox⟩
  simp only [Machine.take, h.signal, hbit]
  rfl

/-- A calm machine is not interrupted. -/
theorem Calm.not_interrupted (h : m.Calm) : m.isInterrupted = false := by
  simp [isInterrupted, h.signal, Signal.isRaised]

/-- A step that goes on keeps the calm. -/
theorem Calm.step (h : m.Calm) (hstep : m.step task = .running m') : m'.Calm := by
  have hread := h.counted.flush.take
  cases advances_of_running hstep with
  | write =>
    have hsend := h.counted.send (·.put m.tape.byte) (h.outbox.put _)
    exact ⟨hsend.signal, hsend.input, hsend.outbox⟩
  | read => exact ⟨hread.signal, hread.input, hread.outbox⟩
  | ended => exact ⟨hread.signal, hread.input, hread.outbox⟩
  | _ => exact ⟨h.counted.signal, h.input, h.outbox⟩

/-- So does one that stops. -/
theorem Calm.stopped (h : m.Calm) {reason : StopReason} {fault : Option Fault}
    (hstop : m.step task = .stopped m' reason fault) : m'.Calm := by
  rcases stop_cases hstop with ⟨-, hf⟩ | ⟨n, given, hgive, habort⟩
  · rw [machine_of_finish hf]
    exact h.flush
  · rw [(machine_of_abort habort).1]
    cases hgive with
    | spent => exact h.flush
    | interrupted => exact h.counted.flush
    | writing => exact (h.counted.send (·.put m.tape.byte) (h.outbox.put _)).flush
    | flushing => exact h.counted.flush.flush
    | reading => exact h.counted.flush.take.flush
    | unrecorded => exact h.counted.flush
    | stray => exact h.counted.flush

theorem Calm.run (h : m.Calm) {visited : List (Machine w)} (hrun : Run task m visited m') : m'.Calm :=
  hrun.invariant (P := fun _ n => n.Calm) h (fun _ _ _ hn hs => hn.step hs)

end Machine
end TapeMachine
