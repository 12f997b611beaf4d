import TapeMachine.Stream.Input

/-! What an input supplies.

However a source spreads its bytes over its reads, an input hands them out one by one, in order, and then
reports its end for ever. Skipping the empty reads before a real one does what making them does
(`readAgain_eq`). `Input.Supplies` says which bytes are still to come and that nothing else will
happen: the ending is the end of the input, no call still to be made cancels the turn, and no empty read is
taken for something else. `readByte_of_supplies` is what one read does to it. -/
namespace TapeMachine

/-- One read of `bytes` can give this answer and leave those bytes: it hands out the first byte, or reports
the end of the input where there is none. -/
def Answers : List UInt8 → Except Fault UInt8 → List UInt8 → Prop
  | [], answer, left => (∃ fault, answer = .error fault ∧ fault.isA .endOfInput = true) ∧ left = []
  | b :: rest, answer, left => answer = .ok b ∧ left = rest

namespace Source

/-- A source whose ending is the end of the input, and none of whose further calls cancels the turn. -/
structure IsSound (s : Source) : Prop where
  ending : s.ending.isA .endOfInput = true
  calm : s.cancelAt ≤ s.calls

theorem portion_pos (s : Source) {room : Nat} (h : 0 < room) : 0 < s.portion room := by
  simp only [portion]
  split <;> omega

theorem serve_source (s : Source) (room : Nat) :
    (s.serve room).source =
      { s with
        data := s.data.drop (s.portion room)
        calls := s.calls + 1
        served := s.served + 1
        idle := s.pacing.gap (s.served + 1) } := by
  simp only [serve]
  split <;> rfl

theorem serve_nil {s : Source} (h : s.data = []) (room : Nat) :
    (s.serve room).bytes = [] ∧ (s.serve room).ending = some s.ending := by
  simp [serve, h]

theorem serve_cons {s : Source} {b : UInt8} {rest : List UInt8} (h : s.data = b :: rest) {room : Nat}
    (hroom : 0 < room) :
    (s.serve room).bytes = b :: rest.take (s.portion room - 1) ∧
      (s.serve room).source.data = rest.drop (s.portion room - 1) ∧
      ((s.serve room).ending = none ∨
        (s.serve room).ending = some s.ending ∧ (s.serve room).source.data = []) := by
  have hpos := s.portion_pos hroom
  obtain ⟨k, hk⟩ : ∃ k, s.portion room = k + 1 := ⟨s.portion room - 1, by omega⟩
  have hafter : (s.serve room).source.data = rest.drop k := by rw [serve_source, h, hk]; rfl
  refine ⟨by simp [serve, h, hk], by rw [hafter, hk]; rfl, ?_⟩
  rw [hafter]
  simp only [serve, h, hk, List.isEmpty_cons, List.drop_succ_cons]
  cases s.endsWithData with
  | false => exact .inl rfl
  | true =>
    cases rest.drop k with
    | nil => exact .inr ⟨rfl, rfl⟩
    | cons c more => exact .inl rfl

/-- A real read hands out the first bytes, and the ending only with the last one or behind it. -/
theorem serve_spec (s : Source) {room : Nat} (hroom : 0 < room) :
    (s.serve room).bytes ++ (s.serve room).source.data = s.data ∧
      ((s.serve room).ending = none ∨
        (s.serve room).ending = some s.ending ∧ (s.serve room).source.data = []) ∧
      ((s.serve room).source.data.length < s.data.length ∨ (s.serve room).ending = some s.ending) := by
  cases hd : s.data with
  | nil =>
    obtain ⟨hbytes, hending⟩ := serve_nil hd room
    have hafter : (s.serve room).source.data = [] := by
      rw [serve_source]
      simp [hd]
    rw [hbytes, hending, hafter]
    exact ⟨rfl, .inr ⟨rfl, rfl⟩, .inr rfl⟩
  | cons b rest =>
    obtain ⟨hbytes, hafter, hending⟩ := serve_cons hd hroom
    refine ⟨?_, hending, .inl ?_⟩
    · rw [hbytes, hafter, List.cons_append, List.take_append_drop]
    · rw [hafter, List.length_drop, List.length_cons]
      omega

theorem skipIdle_of_idle {s : Source} (h : s.idle = 0) : s.skipIdle = s := by
  simp only [skipIdle, h, Nat.add_zero]
  rw [← h]

theorem read_of_idle {s : Source} (h : s.idle = 0) (room : Nat) : s.read room = s.serve room := by
  rw [read, h]

/-- An empty read is one of those that are skipped. -/
theorem read_of_idle_succ {s : Source} {n : Nat} (h : s.idle = n + 1) (room : Nat) :
    s.read room = ⟨[], none, { s with calls := s.calls + 1, idle := n }⟩ ∧
      ({ s with calls := s.calls + 1, idle := n } : Source).skipIdle = s.skipIdle := by
  constructor
  · rw [read, h]
  · simp only [skipIdle, h]
    rw [Nat.add_right_comm, Nat.add_assoc]

/-- Reads, and reads again after an empty read, up to `tries` times. -/
def readAgain : Nat → Source → Nat → Delivery
  | 0, s, room => s.read room
  | tries + 1, s, room =>
    let d := s.read room
    if d.bytes.isEmpty && d.ending.isNone then readAgain tries d.source room else d

/-- Reading again and again makes the empty reads and then a real one. -/
theorem readAgain_eq {tries : Nat} {s : Source} (hidle : s.idle ≤ tries) {room : Nat} (hroom : 0 < room) :
    readAgain tries s room = s.skipIdle.serve room := by
  induction tries generalizing s with
  | zero =>
    have hnone := Nat.le_zero.mp hidle
    rw [readAgain, read_of_idle hnone, skipIdle_of_idle hnone]
  | succ tries ih =>
    cases hi : s.idle with
    | zero =>
      have hreal : ¬((s.serve room).bytes.isEmpty && (s.serve room).ending.isNone) = true := by
        cases hd : s.data with
        | nil => simp [(serve_nil hd room).2]
        | cons b rest => simp [(serve_cons hd hroom).1]
      simp only [readAgain, read_of_idle hi, if_neg hreal, skipIdle_of_idle hi]
    | succ n =>
      obtain ⟨hread, hskip⟩ := read_of_idle_succ hi room
      have hlater := ih (s := { s with calls := s.calls + 1, idle := n }) (show n ≤ tries by omega)
      rw [hskip] at hlater
      simp only [readAgain, hread, List.isEmpty_nil, Option.isNone_none, Bool.and_self, if_true]
      exact hlater

theorem IsSound.not_cancelled {s s' : Source} (h : s.IsSound) (hsame : s'.cancelAt = s.cancelAt) :
    s'.hasCancelledSince s.calls = false := by
  have := h.calm
  simp only [hasCancelledSince, hsame, Bool.and_eq_false_iff, decide_eq_false_iff_not]
  omega

theorem portion_one (s : Source) : s.portion 1 = 1 := by
  simp only [portion]
  split <;> omega

theorem readByte_serve (s : Source) : s.readByte.2 = (s.skipIdle.serve 1).source := by
  unfold readByte
  dsimp only
  split <;> rfl

theorem readByte_source (s : Source) :
    s.readByte.2 =
      { s with
        data := s.data.drop 1
        calls := s.calls + s.idle + 1
        served := s.served + 1
        idle := s.pacing.gap (s.served + 1) } := by
  rw [readByte_serve, serve_source, portion_one]
  rfl

/-- Reading a byte is reading into a space of one byte until something comes. -/
theorem readByte_eq_readAgain {tries : Nat} {s : Source} (hidle : s.idle ≤ tries) :
    s.readByte.2 = (readAgain tries s 1).source ∧
      (∀ b rest, (readAgain tries s 1).bytes = b :: rest → s.readByte.1 = .ok b) ∧
      ((readAgain tries s 1).bytes = [] → (readAgain tries s 1).ending = some s.ending ∧
        s.readByte.1 = .error s.ending) := by
  rw [readAgain_eq hidle Nat.one_pos]
  refine ⟨readByte_serve s, fun b rest hbytes => by simp only [readByte, hbytes], fun hbytes => ?_⟩
  cases hd : s.data with
  | nil =>
    have hending : (s.skipIdle.serve 1).ending = some s.ending := (serve_nil (s := s.skipIdle) hd 1).2
    exact ⟨hending, by simp only [readByte, hbytes, hending, Option.getD_some]⟩
  | cons b rest => cases hbytes.symm.trans (serve_cons (s := s.skipIdle) hd Nat.one_pos).1

theorem readByte_of_isSound {s : Source} (h : s.IsSound) :
    s.readByte.2.IsSound ∧ Answers s.data s.readByte.1 s.readByte.2.data := by
  have hcalm := h.calm
  rw [readByte_source]
  refine ⟨⟨h.ending, show s.cancelAt ≤ s.calls + s.idle + 1 by omega⟩, ?_⟩
  cases hd : s.data with
  | nil =>
    obtain ⟨hbytes, hending⟩ := serve_nil (s := s.skipIdle) hd 1
    refine ⟨⟨s.ending, ?_, h.ending⟩, rfl⟩
    simp only [readByte, hbytes, hending]
    rfl
  | cons b rest =>
    obtain ⟨hbytes, -⟩ := serve_cons (s := s.skipIdle) hd Nat.one_pos
    exact ⟨by simp only [readByte, hbytes], rfl⟩

/-- Without empty reads, reading once is as good as reading until something comes. -/
theorem readOnce_eq {s : Source} (hidle : s.idle = 0) : s.readOnce = s.readByte := by
  have hskip := skipIdle_of_idle hidle
  cases hd : s.data with
  | nil =>
    obtain ⟨hbytes, hending⟩ := serve_nil hd 1
    simp only [readOnce, readByte, read, hidle, hskip, hbytes, hending, Option.getD_some]
  | cons b rest =>
    obtain ⟨hbytes, -⟩ := serve_cons hd Nat.one_pos
    simp only [readOnce, readByte, read, hidle, hskip, hbytes]

end Source

namespace Feed

/-- A feed after one real read, with the empty reads before it. -/
def filled (f : Feed) : Feed :=
  let d := f.source.skipIdle.serve (capacity - f.buffer.length)
  ⟨d.source, f.buffer ++ d.bytes, d.ending.or f.fault⟩

/-- Patience for the empty reads that are pending suffices to get to a real one. -/
theorem fillWithin_eq {n : Nat} {f : Feed} (hidle : f.source.idle < n)
    (hroom : f.buffer.length < capacity) : fillWithin n f = f.filled := by
  induction n generalizing f with
  | zero => omega
  | succ n ih =>
    obtain ⟨source, buffer, fault⟩ := f
    cases hi : source.idle with
    | zero =>
      have hskip := Source.skipIdle_of_idle hi
      simp only [fillWithin, Source.read, hi, filled, hskip]
      cases hd : source.data with
      | nil =>
        obtain ⟨hbytes, hending⟩ := Source.serve_nil hd (capacity - buffer.length)
        rw [hbytes, hending]
        rfl
      | cons b rest =>
        obtain ⟨hbytes, -, hending⟩ := Source.serve_cons hd (show 0 < capacity - buffer.length by
          have : buffer.length < capacity := hroom
          omega)
        rcases hending with hending | ⟨hending, -⟩
        · rw [hbytes, hending]
          rfl
        · rw [hbytes, hending]
          rfl
    | succ k =>
      have hlater := ih (f := ⟨{ source with calls := source.calls + 1, idle := k }, buffer, fault⟩)
        (by have : source.idle < n + 1 := hidle
            show k < n
            omega) hroom
      obtain ⟨hread, hskip⟩ := Source.read_of_idle_succ hi (capacity - buffer.length)
      simp only [fillWithin, hread]
      rw [hlater]
      simp only [filled, hskip]

/-- The bytes that a feed still hands out. -/
def pending (f : Feed) : List UInt8 := f.buffer ++ f.source.data

/-- A feed whose patience always suffices. -/
structure IsPatient (f : Feed) : Prop where
  idle : f.source.idle < patience
  gaps : ∀ n, f.source.pacing.gap n < patience

/-- A feed whose source is sound, whose patience always suffices, and whose waiting ending is the one behind
the last byte. -/
structure IsSound (f : Feed) : Prop where
  source : f.source.IsSound
  idle : f.source.idle < patience
  gaps : ∀ n, f.source.pacing.gap n < patience
  fault : ∀ fault, f.fault = some fault → fault.isA .endOfInput = true ∧ f.source.data = []

/-- Filling `f` gives `g`: bytes move from the source into the buffer, at least one if there is one, or the ending is
met. -/
structure FilledTo (f g : Feed) : Prop where
  patient : g.IsPatient
  pending : g.pending = f.pending
  cancelAt : g.source.cancelAt = f.source.cancelAt
  calls : f.source.calls ≤ g.source.calls
  ending : g.source.ending = f.source.ending
  fault : g.fault = none ∨ g.fault = some f.source.ending ∧ g.source.data = []
  progress : g.source.data.length < f.source.data.length ∨ g.fault = some f.source.ending

theorem fill_of_isPatient {f : Feed} (h : f.IsPatient) (hroom : f.buffer.length < capacity)
    (hfault : f.fault = none) : f.FilledTo f.fill := by
  have hfill : f.fill = f.filled := fillWithin_eq h.idle hroom
  obtain ⟨source, buffer, fault⟩ := f
  obtain rfl : fault = none := hfault
  obtain ⟨hbytes, hending, hprogress⟩ := source.skipIdle.serve_spec (Nat.sub_pos_of_lt hroom)
  have hstatic := source.skipIdle.serve_source (capacity - buffer.length)
  rw [hfill]
  simp only [filled, Option.or_none]
  generalize source.skipIdle.serve (capacity - buffer.length) = d at *
  refine ⟨⟨?_, ?_⟩, ?_, ?_, ?_, ?_, hending, hprogress⟩
  · rw [hstatic]
    exact h.gaps _
  · rw [hstatic]
    exact h.gaps
  · show (buffer ++ d.bytes) ++ d.source.data = buffer ++ source.data
    rw [List.append_assoc, hbytes]
    rfl
  · rw [hstatic]
    rfl
  · rw [hstatic]
    exact Nat.le_trans (Nat.le_add_right _ source.idle) (Nat.le_succ _)
  · rw [hstatic]
    rfl

theorem IsSound.patient {f : Feed} (h : f.IsSound) : f.IsPatient := ⟨h.idle, h.gaps⟩

theorem IsSound.filled {f g : Feed} (h : f.IsSound) (hfill : f.FilledTo g) : g.IsSound := by
  refine ⟨⟨?_, ?_⟩, hfill.patient.idle, hfill.patient.gaps, fun fault hf => ?_⟩
  · rw [hfill.ending]
    exact h.source.ending
  · rw [hfill.cancelAt]
    exact Nat.le_trans h.source.calm hfill.calls
  · rcases hfill.fault with hnone | ⟨hsome, hnil⟩
    · cases hnone.symm.trans hf
    · obtain rfl := Option.some.inj (hsome.symm.trans hf)
      exact ⟨h.source.ending, hnil⟩

/-- With a byte in the buffer, or an ending behind it, nothing is read from the source. -/
theorem readByte_of_ready {f : Feed} (h : f.IsSound)
    (hready : (f.buffer.isEmpty && f.fault.isNone) = false) :
    f.readByte.2.IsSound ∧ f.readByte.2.source.cancelAt = f.source.cancelAt ∧
      Answers f.pending f.readByte.1 f.readByte.2.pending := by
  obtain ⟨source, buffer, fault⟩ := f
  cases buffer with
  | cons b rest =>
    simp only [readByte, pending, hready, List.cons_append, Bool.false_eq_true, if_false]
    exact ⟨⟨h.source, h.idle, h.gaps, h.fault⟩, trivial, rfl, rfl⟩
  | nil =>
    cases fault with
    | none => cases hready
    | some fault =>
      obtain ⟨hend, hdata⟩ := h.fault fault rfl
      have hdata : source.data = [] := hdata
      simp only [readByte, pending, hdata, report, Option.getD_some, List.isEmpty_nil,
        Option.isNone_some, Bool.and_false, Bool.false_eq_true, if_false, List.append_nil]
      exact ⟨⟨h.source, h.idle, h.gaps, fun _ hf => (by cases hf)⟩, trivial, ⟨fault, rfl, hend⟩, rfl⟩

/-- An empty feed is filled before it hands out a byte, and then it has one or an ending. -/
theorem readByte_of_empty {f : Feed} (h : f.IsPatient) (hbuffer : f.buffer = []) (hfault : f.fault = none) :
    f.FilledTo f.fill ∧ (f.fill.buffer.isEmpty && f.fill.fault.isNone) = false ∧ f.readByte = f.fill.readByte := by
  have hfill : f.FilledTo f.fill := fill_of_isPatient h (by rw [hbuffer]; decide) hfault
  have hready : (f.fill.buffer.isEmpty && f.fill.fault.isNone) = false := by
    rcases hfill.progress with hless | hsome
    · have hpending := congrArg List.length hfill.pending
      simp only [pending, hbuffer, List.nil_append, List.length_append] at hpending
      have hne : f.fill.buffer ≠ [] := List.ne_nil_of_length_pos (by omega)
      simp [hne]
    · simp [hsome]
  refine ⟨hfill, hready, ?_⟩
  simp only [readByte, hbuffer, hfault, hready, List.isEmpty_nil, Option.isNone_none, Bool.and_self, if_true,
    Bool.false_eq_true, if_false]

/-- A byte of a sound feed comes from its buffer, which is filled first if it is empty. -/
theorem readByte_of_isSound {f : Feed} (h : f.IsSound) :
    f.readByte.2.IsSound ∧ f.readByte.2.source.cancelAt = f.source.cancelAt ∧
      Answers f.pending f.readByte.1 f.readByte.2.pending := by
  cases hready : (f.buffer.isEmpty && f.fault.isNone) with
  | false => exact readByte_of_ready h hready
  | true =>
    rw [Bool.and_eq_true, List.isEmpty_iff, Option.isNone_iff_eq_none] at hready
    obtain ⟨hfill, hfilled, hsame⟩ := readByte_of_empty h.patient hready.1 hready.2
    rw [hsame, ← hfill.pending, ← hfill.cancelAt]
    exact readByte_of_ready (h.filled hfill) hfilled

end Feed

namespace Input

/-- The input hands out these bytes, one at each read, and then reports its end for ever; no read cancels
the turn. -/
def Supplies : Input → List UInt8 → Prop
  | .absent, bytes => bytes = []
  | .plain source, bytes => source.data = bytes ∧ source.IsSound
  | .single source, bytes =>
    source.data = bytes ∧ source.IsSound ∧ source.idle = 0 ∧ ∀ n, source.pacing.gap n = 0
  | .buffered feed, bytes => feed.pending = bytes ∧ feed.IsSound

/-- What one read does to an input that supplies bytes: it hands out the first, or meets the end. -/
theorem readByte_of_supplies {i : Input} {bytes : List UInt8} (h : i.Supplies bytes) :
    i.readByte.2.hasCancelledSince i.calls = false ∧
      ∃ left, Answers bytes i.readByte.1 left ∧ i.readByte.2.Supplies left := by
  cases i with
  | absent =>
    obtain rfl : bytes = [] := h
    exact ⟨rfl, [], ⟨⟨_, rfl, rfl⟩, rfl⟩, rfl⟩
  | plain source =>
    obtain ⟨rfl, hsound⟩ := h
    obtain ⟨hafter, hanswers⟩ := Source.readByte_of_isSound hsound
    have hcancel : source.readByte.2.cancelAt = source.cancelAt := by rw [source.readByte_source]
    exact ⟨hsound.not_cancelled hcancel, _, hanswers, rfl, hafter⟩
  | single source =>
    obtain ⟨rfl, hsound, hidle, hgaps⟩ := h
    obtain ⟨hafter, hanswers⟩ := Source.readByte_of_isSound hsound
    have hcancel : source.readByte.2.cancelAt = source.cancelAt := by rw [source.readByte_source]
    simp only [readByte, Source.readOnce_eq hidle]
    refine ⟨hsound.not_cancelled hcancel, _, hanswers, rfl, hafter, ?_⟩
    rw [source.readByte_source]
    exact ⟨hgaps _, hgaps⟩
  | buffered feed =>
    obtain ⟨rfl, hsound⟩ := h
    obtain ⟨hafter, hcancel, hanswers⟩ := Feed.readByte_of_isSound hsound
    exact ⟨hsound.source.not_cancelled hcancel, _, hanswers, rfl, hafter⟩

end Input
end TapeMachine
