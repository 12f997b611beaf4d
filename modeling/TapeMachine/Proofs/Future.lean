import TapeMachine.Proofs.Lockstep
import TapeMachine.Proofs.Supply

/-! Streams with the same future.

Two sources, or two sinks, may have a different past and still do the same from now on: `Alike` compares what
lies ahead and forgets the rest. A source is its remaining bytes, its ending, the reads still to be made and
the call still to cancel; a sink is the replies and the room it has left. Reads and writes of streams that are
alike give the same answers and leave streams that are alike, and what two sinks have accepted meanwhile is
the same (`Sink.AlikeSince`). So two machines that differ in the past of their streams only run in lockstep
(`futures`). -/
namespace TapeMachine

/-! ### Sources -/

namespace Source

/-- Two sources with the same future. -/
structure Alike (s t : Source) : Prop where
  data : t.data = s.data
  endsWithData : t.endsWithData = s.endsWithData
  ending : t.ending = s.ending
  idle : t.idle = s.idle
  chunk : ∀ n, t.pacing.chunk (t.served + n) = s.pacing.chunk (s.served + n)
  gap : ∀ n, t.pacing.gap (t.served + n + 1) = s.pacing.gap (s.served + n + 1)
  cancels : ∀ n, t.calls + n + 1 = t.cancelAt ↔ s.calls + n + 1 = s.cancelAt

/-- Two sources that were `a` and `b` have since made equally many calls, and have the same future. -/
structure AlikeSince (a b s t : Source) : Prop where
  alike : s.Alike t
  calls : ∃ made, s.calls = a.calls + made ∧ t.calls = b.calls + made
  cancelAt : s.cancelAt = a.cancelAt ∧ t.cancelAt = b.cancelAt

theorem Alike.refl (s : Source) : s.Alike s :=
  ⟨rfl, rfl, rfl, rfl, fun _ => rfl, fun _ => rfl, fun _ => Iff.rfl⟩

theorem Alike.since {s t : Source} (h : s.Alike t) : AlikeSince s t s t :=
  ⟨h, ⟨0, rfl, rfl⟩, rfl, rfl⟩

theorem AlikeSince.trans {a b s t s' t' : Source} (h : AlikeSince a b s t) (h' : AlikeSince s t s' t') :
    AlikeSince a b s' t' := by
  obtain ⟨made, hs, ht⟩ := h.calls
  obtain ⟨more, hs', ht'⟩ := h'.calls
  exact ⟨h'.alike, ⟨made + more, by omega, by omega⟩, h'.cancelAt.1.trans h.cancelAt.1,
    h'.cancelAt.2.trans h.cancelAt.2⟩

/-- Calls made in common cancel alike. -/
theorem AlikeSince.hasCancelledSince {a b s t : Source} (h : AlikeSince a b s t) (hstart : a.Alike b) :
    t.hasCancelledSince b.calls = s.hasCancelledSince a.calls := by
  obtain ⟨made, hs, ht⟩ := h.calls
  have hcancels := hstart.cancels
  rw [Source.hasCancelledSince, Source.hasCancelledSince, h.cancelAt.1, h.cancelAt.2, hs, ht,
    ← Bool.decide_and, ← Bool.decide_and, decide_eq_decide]
  constructor
  · intro hpast
    have := (hcancels (b.cancelAt - b.calls - 1)).mp (by omega)
    omega
  · intro hpast
    have := (hcancels (a.cancelAt - a.calls - 1)).mpr (by omega)
    omega

/-- A call that is served leaves the future one real read shorter. -/
theorem Alike.advance {s t : Source} (h : s.Alike t) (data : List UInt8) (made : Nat) :
    AlikeSince s t
      { s with
        data, calls := s.calls + (made + 1), served := s.served + 1
        idle := s.pacing.gap (s.served + 1) }
      { t with
        data, calls := t.calls + (made + 1), served := t.served + 1
        idle := t.pacing.gap (t.served + 1) } where
  alike :=
    { data := rfl
      endsWithData := h.endsWithData
      ending := h.ending
      idle := h.gap 0
      chunk := fun n => by
        show t.pacing.chunk (t.served + 1 + n) = s.pacing.chunk (s.served + 1 + n)
        rw [Nat.add_assoc, Nat.add_assoc]
        exact h.chunk (1 + n)
      gap := fun n => by
        show t.pacing.gap (t.served + 1 + n + 1) = s.pacing.gap (s.served + 1 + n + 1)
        rw [Nat.add_right_comm t.served, Nat.add_right_comm s.served]
        exact h.gap (n + 1)
      cancels := fun n => by
        have := h.cancels (made + 1 + n)
        show t.calls + (made + 1) + n + 1 = t.cancelAt ↔ s.calls + (made + 1) + n + 1 = s.cancelAt
        omega }
  calls := ⟨made + 1, rfl, rfl⟩
  cancelAt := ⟨rfl, rfl⟩

/-- An empty read leaves one less to be made. -/
theorem Alike.wait {s t : Source} (h : s.Alike t) (n : Nat) :
    AlikeSince s t { s with calls := s.calls + 1, idle := n } { t with calls := t.calls + 1, idle := n } where
  alike :=
    { h with
      idle := rfl
      cancels := fun k => by
        have := h.cancels (k + 1)
        show t.calls + 1 + k + 1 = t.cancelAt ↔ s.calls + 1 + k + 1 = s.cancelAt
        omega }
  calls := ⟨1, rfl, rfl⟩
  cancelAt := ⟨rfl, rfl⟩

theorem Alike.portion {s t : Source} (h : s.Alike t) (room : Nat) : t.portion room = s.portion room := by
  have := h.chunk 0
  rw [Nat.add_zero, Nat.add_zero] at this
  simp only [Source.portion, this]

/-- One call on each of two sources that are alike. -/
theorem Alike.read {s t : Source} (h : s.Alike t) (room : Nat) :
    (t.read room).bytes = (s.read room).bytes ∧ (t.read room).ending = (s.read room).ending ∧
      AlikeSince s t (s.read room).source (t.read room).source := by
  unfold Source.read
  rw [h.idle]
  cases s.idle with
  | succ n => exact ⟨rfl, rfl, h.wait n⟩
  | zero =>
    refine ⟨?_, ?_, ?_⟩
    · simp only [serve, h.data, h.portion]
      split <;> rfl
    · simp only [serve, h.data, h.portion, h.ending, h.endsWithData]
      split <;> rfl
    · rw [serve_source, serve_source, h.data, h.portion]
      exact h.advance _ 0

theorem readByte_answer (s : Source) :
    s.readByte.1 = match s.data with | [] => .error s.ending | b :: _ => .ok b := by
  cases hd : s.data with
  | nil =>
    obtain ⟨hbytes, hending⟩ := serve_nil (s := s.skipIdle) hd 1
    simp only [readByte, hbytes, hending]
    rfl
  | cons b rest =>
    obtain ⟨hbytes, -⟩ := serve_cons (s := s.skipIdle) hd Nat.one_pos
    simp only [readByte, hbytes]

theorem Alike.readByte {s t : Source} (h : s.Alike t) :
    t.readByte.1 = s.readByte.1 ∧ AlikeSince s t s.readByte.2 t.readByte.2 := by
  refine ⟨by rw [readByte_answer, readByte_answer, h.data, h.ending], ?_⟩
  rw [readByte_source, readByte_source, h.data, h.idle, Nat.add_assoc, Nat.add_assoc]
  exact h.advance _ _

theorem Alike.readOnce {s t : Source} (h : s.Alike t) :
    t.readOnce.1 = s.readOnce.1 ∧ AlikeSince s t s.readOnce.2 t.readOnce.2 := by
  obtain ⟨hbytes, hending, hsince⟩ := h.read 1
  unfold Source.readOnce
  dsimp only
  rw [hbytes, hending]
  split <;> exact ⟨rfl, hsince⟩

end Source

/-! ### Inputs -/

namespace Feed

/-- Two feeds that hold the same and read from sources with the same future. -/
structure Alike (f g : Feed) : Prop where
  source : f.source.Alike g.source
  buffer : g.buffer = f.buffer
  fault : g.fault = f.fault

/-- Reading until something comes does so alike. -/
theorem Alike.fillWithin {f g : Feed} (h : f.Alike g) (n : Nat) :
    (Feed.fillWithin n f).Alike (Feed.fillWithin n g) ∧
      Source.AlikeSince f.source g.source (Feed.fillWithin n f).source (Feed.fillWithin n g).source := by
  induction n generalizing f g with
  | zero => exact ⟨⟨h.source, h.buffer, rfl⟩, h.source.since⟩
  | succ n ih =>
    obtain ⟨hbytes, hending, hsince⟩ := h.source.read (capacity - f.buffer.length)
    unfold Feed.fillWithin
    dsimp only
    rw [h.buffer, hbytes, hending]
    cases (f.source.read (capacity - f.buffer.length)).ending with
    | some fault => exact ⟨⟨hsince.alike, rfl, rfl⟩, hsince⟩
    | none =>
      cases (f.source.read (capacity - f.buffer.length)).bytes with
      | nil =>
        obtain ⟨halike, hlater⟩ := ih (f := { f with source := _ }) (g := { g with source := _ })
          ⟨hsince.alike, h.buffer, h.fault⟩
        rw [h.buffer] at halike hlater
        exact ⟨halike, hsince.trans hlater⟩
      | cons b rest => exact ⟨⟨hsince.alike, rfl, h.fault⟩, hsince⟩

/-- Hands out a byte of the buffer, or the ending. -/
def handOut (f : Feed) : Except Fault UInt8 × Feed :=
  match f.buffer with
  | b :: rest => (.ok b, { f with buffer := rest })
  | [] => (.error f.report.1, f.report.2)

theorem readByte_eq (f : Feed) :
    f.readByte = (if f.buffer.isEmpty && f.fault.isNone then f.fill else f).handOut := rfl

/-- Handing out a byte, or the ending, does not touch the source. -/
theorem Alike.handOut {f g : Feed} (h : f.Alike g) :
    g.handOut.1 = f.handOut.1 ∧ f.handOut.2.Alike g.handOut.2 ∧
      f.handOut.2.source = f.source ∧ g.handOut.2.source = g.source := by
  unfold Feed.handOut
  rw [h.buffer]
  cases f.buffer with
  | nil => exact ⟨by rw [Feed.report, Feed.report, h.fault], ⟨h.source, h.buffer, rfl⟩, rfl, rfl⟩
  | cons b rest => exact ⟨rfl, ⟨h.source, rfl, h.fault⟩, rfl, rfl⟩

theorem Alike.readByte {f g : Feed} (h : f.Alike g) :
    g.readByte.1 = f.readByte.1 ∧ f.readByte.2.Alike g.readByte.2 ∧
      Source.AlikeSince f.source g.source f.readByte.2.source g.readByte.2.source := by
  rw [readByte_eq, readByte_eq, h.buffer, h.fault]
  cases f.buffer.isEmpty && f.fault.isNone with
  | true =>
    obtain ⟨hfill, hsince⟩ : f.fill.Alike g.fill ∧
        Source.AlikeSince f.source g.source f.fill.source g.fill.source := h.fillWithin patience
    obtain ⟨hanswer, halike, hf, hg⟩ := hfill.handOut
    refine ⟨hanswer, halike, ?_⟩
    rw [if_pos rfl, if_pos rfl, hf, hg]
    exact hsince
  | false =>
    obtain ⟨hanswer, halike, hf, hg⟩ := h.handOut
    refine ⟨hanswer, halike, ?_⟩
    rw [if_neg (by decide), if_neg (by decide), hf, hg]
    exact h.source.since

end Feed

namespace Input

/-- Two inputs of one kind with the same future. -/
inductive Alike : Input → Input → Prop
  | absent : Alike .absent .absent
  | plain {s t : Source} : s.Alike t → Alike (.plain s) (.plain t)
  | single {s t : Source} : s.Alike t → Alike (.single s) (.single t)
  | buffered {f g : Feed} : f.Alike g → Alike (.buffered f) (.buffered g)

theorem Alike.refl (i : Input) : i.Alike i := by
  cases i with
  | absent => exact .absent
  | plain s => exact .plain (.refl s)
  | single s => exact .single (.refl s)
  | buffered f => exact .buffered ⟨.refl f.source, rfl, rfl⟩

/-- A byte taken from each of two inputs that are alike. -/
theorem Alike.readByte {i j : Input} (h : i.Alike j) :
    j.readByte.1 = i.readByte.1 ∧ i.readByte.2.Alike j.readByte.2 ∧
      j.readByte.2.hasCancelledSince j.calls = i.readByte.2.hasCancelledSince i.calls := by
  cases h with
  | absent => exact ⟨rfl, .absent, rfl⟩
  | plain h =>
    obtain ⟨hanswer, hsince⟩ := h.readByte
    exact ⟨hanswer, .plain hsince.alike, hsince.hasCancelledSince h⟩
  | single h =>
    obtain ⟨hanswer, hsince⟩ := h.readOnce
    exact ⟨hanswer, .single hsince.alike, hsince.hasCancelledSince h⟩
  | buffered h =>
    obtain ⟨hanswer, halike, hsince⟩ := h.readByte
    exact ⟨hanswer, .buffered halike, hsince.hasCancelledSince h.source⟩

end Input

/-! ### Sinks -/

namespace Sink

/-- Two sinks with the same future. -/
structure Alike (s t : Sink) : Prop where
  replies : t.replies = s.replies
  room : t.limit.map (· - t.delivered.size) = s.limit.map (· - s.delivered.size)
  short : t.short = s.short
  failure : t.failure = s.failure
  cancels : ∀ n, t.writes.size + n + 1 = t.cancelAt ↔ s.writes.size + n + 1 = s.cancelAt

/-- Two sinks that were `a` and `b` have since been offered the same, have accepted and reported the same, and have
the same future. -/
structure AlikeSince (a b s t : Sink) : Prop where
  alike : s.Alike t
  delivered : ∃ sent, s.delivered = a.delivered ++ sent ∧ t.delivered = b.delivered ++ sent
  writes : ∃ calls, s.writes = a.writes ++ calls ∧ t.writes = b.writes ++ calls
  failures : ∃ told, s.failures = a.failures ++ told ∧ t.failures = b.failures ++ told
  cancelAt : s.cancelAt = a.cancelAt ∧ t.cancelAt = b.cancelAt

theorem Alike.refl (s : Sink) : s.Alike s := ⟨rfl, rfl, rfl, rfl, fun _ => Iff.rfl⟩

theorem Alike.refl? (s : Option Sink) : Option.Rel Sink.Alike s s := by
  cases s with
  | none => exact .none
  | some s => exact .some (.refl s)

theorem Alike.since {s t : Sink} (h : s.Alike t) : AlikeSince s t s t :=
  ⟨h, ⟨#[], Array.append_empty.symm, Array.append_empty.symm⟩,
    ⟨#[], Array.append_empty.symm, Array.append_empty.symm⟩,
    ⟨[], (List.append_nil _).symm, (List.append_nil _).symm⟩, rfl, rfl⟩

theorem AlikeSince.trans {a b s t s' t' : Sink} (h : AlikeSince a b s t) (h' : AlikeSince s t s' t') :
    AlikeSince a b s' t' := by
  obtain ⟨sent, hs, ht⟩ := h.delivered
  obtain ⟨more, hs', ht'⟩ := h'.delivered
  obtain ⟨calls, hc, hd⟩ := h.writes
  obtain ⟨further, hc', hd'⟩ := h'.writes
  obtain ⟨told, hf, hg⟩ := h.failures
  obtain ⟨later, hf', hg'⟩ := h'.failures
  refine ⟨h'.alike, ⟨sent ++ more, ?_, ?_⟩, ⟨calls ++ further, ?_, ?_⟩, ⟨told ++ later, ?_, ?_⟩,
    h'.cancelAt.1.trans h.cancelAt.1, h'.cancelAt.2.trans h.cancelAt.2⟩
  · rw [hs', hs, Array.append_assoc]
  · rw [ht', ht, Array.append_assoc]
  · rw [hc', hc, Array.append_assoc]
  · rw [hd', hd, Array.append_assoc]
  · rw [hf', hf, List.append_assoc]
  · rw [hg', hg, List.append_assoc]

/-- Calls made in common cancel alike. -/
theorem AlikeSince.hasCancelledSince {a b s t : Sink} (h : AlikeSince a b s t) (hstart : a.Alike b) :
    t.hasCancelledSince b.writes.size = s.hasCancelledSince a.writes.size := by
  obtain ⟨calls, hs, ht⟩ := h.writes
  have hcancels := hstart.cancels
  rw [Sink.hasCancelledSince, Sink.hasCancelledSince, h.cancelAt.1, h.cancelAt.2, hs, ht,
    Array.size_append, Array.size_append, ← Bool.decide_and, ← Bool.decide_and, decide_eq_decide]
  constructor
  · intro hpast
    have := (hcancels (b.cancelAt - b.writes.size - 1)).mp (by omega)
    omega
  · intro hpast
    have := (hcancels (a.cancelAt - a.writes.size - 1)).mpr (by omega)
    omega

theorem Alike.accepts {s t : Sink} (h : s.Alike t) (n : Nat) : t.accepts n = s.accepts n := by
  have hroom := h.room
  unfold Sink.accepts
  rw [h.replies]
  cases s.replies with
  | cons reply rest => rfl
  | nil =>
    cases hs : s.limit with
    | none =>
      rw [hs, Option.map_none, Option.map_eq_none_iff] at hroom
      rw [hroom]
    | some limit =>
      rw [hs, Option.map_some, Option.map_eq_some_iff] at hroom
      obtain ⟨limit', ht, hroom⟩ := hroom
      simp only [ht, hroom]

theorem Alike.reports {s t : Sink} (h : s.Alike t) (n : Nat) : t.reports n = s.reports n := by
  simp only [Sink.reports, h.replies, h.accepts n, h.short, h.failure]

/-- A write leaves less room, and the same on both sides. -/
theorem Alike.write {s t : Sink} (h : s.Alike t) (bytes : Array UInt8) :
    (t.write bytes).1 = (s.write bytes).1 ∧ AlikeSince s t (s.write bytes).2 (t.write bytes).2 := by
  have haccepts := h.accepts bytes.size
  have hreports := h.reports bytes.size
  refine ⟨hreports, ?_, ⟨_, rfl, ?_⟩, ?_, ⟨_, rfl, ?_⟩, rfl, rfl⟩
  · refine ⟨congrArg List.tail h.replies, ?_, h.short, h.failure, fun n => ?_⟩
    · have hless (limit : Option Nat) (a b : Nat) :
          limit.map (· - (a + b)) = (limit.map (· - a)).map (· - b) := by
        cases limit with
        | none => rfl
        | some limit => exact congrArg some (Nat.sub_add_eq limit a b)
      simp only [Sink.write, haccepts, Array.size_append, hless, h.room]
    · have := h.cancels (n + 1)
      simp only [Sink.write, Array.size_push]
      omega
  · simp only [Sink.write, haccepts]
  · refine ⟨#[(bytes.size, s.accepts bytes.size)], ?_, ?_⟩
    · exact Array.push_eq_append
    · simp only [Sink.write, haccepts]
      exact Array.push_eq_append
  · simp only [Sink.write, hreports]

end Sink

/-! ### Outboxes -/

namespace Outbox

/-- The sinks, if there are any, have been alike since they were `a` and `b`. -/
inductive SinksAlike : Option Sink → Option Sink → Option Sink → Option Sink → Prop
  | none : SinksAlike none none none none
  | some {a b s t : Sink} : Sink.AlikeSince a b s t → SinksAlike (some a) (some b) (some s) (some t)

theorem SinksAlike.refl {a b : Option Sink} (h : Option.Rel Sink.Alike a b) : SinksAlike a b a b := by
  cases h with
  | none => exact .none
  | some h => exact .some h.since

theorem SinksAlike.alike {a b s t : Option Sink} (h : SinksAlike a b s t) : Option.Rel Sink.Alike s t := by
  cases h with
  | none => exact .none
  | some h => exact .some h.alike

theorem SinksAlike.trans {a b s t s' t' : Option Sink} (h : SinksAlike a b s t)
    (h' : SinksAlike s t s' t') : SinksAlike a b s' t' := by
  cases h with
  | none => exact h'
  | some h =>
    cases h' with
    | some h' => exact .some (h.trans h')

/-- Two outboxes that hold the same, in front of sinks that were `a` and `b` and have been alike since. -/
structure AlikeSince (a b : Option Sink) (o p : Outbox) : Prop where
  buffer : p.buffer = o.buffer
  failure : p.failure = o.failure
  sinks : SinksAlike a b o.sink p.sink

variable {a b : Option Sink} {o p : Outbox}

/-- What an operation has to do with alike outboxes, seen from the moment before it. -/
structure ActsAlike (act : Outbox → Outbox) (o p : Outbox) : Prop where
  buffer : (act p).buffer = (act o).buffer
  failure : (act p).failure = (act o).failure
  sinks : SinksAlike o.sink p.sink (act o).sink (act p).sink

theorem ActsAlike.since {act : Outbox → Outbox} (h : ActsAlike act o p)
    (hsince : AlikeSince a b o p) : AlikeSince a b (act o) (act p) :=
  ⟨h.buffer, h.failure, hsince.sinks.trans h.sinks⟩

theorem ActsAlike.hasCancelledSince {act : Outbox → Outbox} (h : ActsAlike act o p)
    (hsince : AlikeSince a b o p) :
    (act p).hasCancelledSince p.calls = (act o).hasCancelledSince o.calls := by
  have hsinks := h.sinks
  have halike := hsince.sinks.alike
  unfold Outbox.hasCancelledSince Outbox.calls
  generalize (act o).sink = s at hsinks
  generalize (act p).sink = t at hsinks
  generalize o.sink = s₀ at hsinks halike
  generalize p.sink = t₀ at hsinks halike
  cases hsinks with
  | none => rfl
  | some h =>
    cases halike with
    | some hstart => exact h.hasCancelledSince hstart

theorem AlikeSince.deliver (h : AlikeSince a b o p) : ActsAlike Outbox.deliver o p := by
  obtain ⟨sink, buffer, failure⟩ := o
  obtain ⟨sink', buffer', failure'⟩ := p
  obtain ⟨rfl, rfl, hsinks⟩ := h
  cases hsinks with
  | none => exact ⟨rfl, rfl, .none⟩
  | some hsince =>
    obtain ⟨hfailure, hwrite⟩ := hsince.alike.write buffer'
    unfold Outbox.deliver
    have haccepts := hsince.alike.accepts buffer'.size
    constructor
    · simp only [haccepts]
      split <;> rfl
    · simp only [haccepts, hfailure]
      split <;> rfl
    · simp only [haccepts]
      split <;> exact .some hwrite

theorem AlikeSince.flush (h : AlikeSince a b o p) : ActsAlike Outbox.flush o p := by
  have hdeliver := h.deliver
  have hguard : (p.failure.isSome || p.buffer.isEmpty) = (o.failure.isSome || o.buffer.isEmpty) := by
    rw [h.failure, h.buffer]
  cases hg : (o.failure.isSome || o.buffer.isEmpty) with
  | true =>
    have ho : o.flush = o := by rw [Outbox.flush, if_pos hg]
    have hp : p.flush = p := by rw [Outbox.flush, if_pos (hguard.trans hg)]
    exact ⟨by rw [ho, hp, h.buffer], by rw [ho, hp, h.failure], by rw [ho, hp]; exact .refl h.sinks.alike⟩
  | false =>
    have ho : o.flush = o.deliver := by rw [Outbox.flush, hg]; rfl
    have hp : p.flush = p.deliver := by rw [Outbox.flush, hguard, hg]; rfl
    exact ⟨by rw [ho, hp, hdeliver.buffer], by rw [ho, hp, hdeliver.failure],
      by rw [ho, hp]; exact hdeliver.sinks⟩

theorem AlikeSince.put (h : AlikeSince a b o p) (byte : UInt8) : ActsAlike (·.put byte) o p := by
  have hflush := h.flush
  by_cases hclosed : o.failure.isSome = true
  · have ho : o.put byte = o := if_pos hclosed
    have hp : p.put byte = p := if_pos (by rw [h.failure, hclosed])
    exact ⟨by simp only [ho, hp, h.buffer], by simp only [ho, hp, h.failure],
      by simp only [ho, hp]; exact .refl h.sinks.alike⟩
  · -- Room is made by a flush or is there; either leaves outboxes that hold the same.
    obtain ⟨o', p', ho, hp, hbuffer, hfailure, hsinks⟩ : ∃ o' p',
        (if capacity ≤ o.buffer.size then o.flush else o) = o' ∧
        (if capacity ≤ p.buffer.size then p.flush else p) = p' ∧
        p'.buffer = o'.buffer ∧ p'.failure = o'.failure ∧ SinksAlike o.sink p.sink o'.sink p'.sink := by
      rw [h.buffer]
      split
      · exact ⟨_, _, rfl, rfl, hflush.buffer, hflush.failure, hflush.sinks⟩
      · exact ⟨_, _, rfl, rfl, h.buffer, h.failure, .refl h.sinks.alike⟩
    have hput : o.put byte =
        if o'.failure.isSome then o' else { o' with buffer := o'.buffer.push byte } := by
      rw [Outbox.put, if_neg hclosed, ho]
    have hput' : p.put byte =
        if o'.failure.isSome then p' else { p' with buffer := o'.buffer.push byte } := by
      rw [Outbox.put, if_neg (by rw [h.failure]; exact hclosed), hp, ← hfailure, ← hbuffer]
    constructor <;> simp only [hput, hput'] <;> split
    · exact hbuffer
    · rfl
    · exact hfailure
    · exact hfailure
    · exact hsinks
    · exact hsinks

end Outbox

/-! ### Machines -/

/-- Streams with the same future, where the sinks were `a` and `b`. -/
def Coupling.Streams.futures (a b : Option Sink) : Coupling.Streams where
  input i j := i.Alike j
  outbox o p := Outbox.AlikeSince a b o p
  answer h := h.readByte.1
  left h := h.readByte.2.1
  hears h := ⟨h.readByte.2.2, fun hlead => absurd rfl hlead⟩
  failure h := h.failure
  put byte := ⟨fun h => (h.put byte).since h,
    fun h => ⟨(h.put byte).hasCancelledSince h, fun hlead => absurd rfl hlead⟩⟩
  flush := ⟨fun h => h.flush.since h, fun h => ⟨h.flush.hasCancelledSince h, fun hlead => absurd rfl hlead⟩⟩

/-- Machines on the same tape whose streams have the same future, and whose sinks were `a` and `b`. -/
def Coupling.futures (w : Nat) (a b : Option Sink) : Coupling w w := (Streams.futures a b).onTape w

end TapeMachine
