import TapeMachine.Proofs.Supply
import TapeMachine.Session

/-! Sources that are read whole.

A source is read to its ending before any of it is run. Every read takes a byte or meets the ending, and there is always
room for a byte, so what is taken is the data of the source in order, however it is spread over the reads
(`readRest_eq`), and whether empty reads are skipped or made (`readEach_eq_readRest`). The plain end of the input makes
a program of it, and the session turns that program. With any other ending there is no program, also if what was taken
would be one, and the session is not touched (`turnOfSource_eq`). -/
namespace TapeMachine

namespace Source

theorem length_serve_le (s : Source) (room : Nat) : (s.serve room).bytes.length ≤ room := by
  have hportion : s.portion room ≤ room := by
    simp only [portion]
    split <;> omega
  simp only [serve]
  split
  · exact Nat.zero_le _
  · rw [List.length_take]
    omega

/-- A read that does not meet the ending takes a byte, and there is room for another one, once a full space is
enlarged. -/
theorem progress_of_serve {room used : Nat} {s : Source} (hroom : used < room)
    (hnone : (s.serve (room - used)).ending = none) :
    (s.serve (room - used)).source.data.length < s.data.length ∧
      used + (s.serve (room - used)).bytes.length <
        if used + (s.serve (room - used)).bytes.length = room then room + (room + 768) / 4 else room := by
  obtain ⟨-, -, hprogress⟩ := s.serve_spec (Nat.sub_pos_of_lt hroom)
  have hlength := s.length_serve_le (room - used)
  constructor
  · rcases hprogress with hless | hsome
    · exact hless
    · cases hnone.symm.trans hsome
  · split <;> omega

theorem readRest_eq {fuel room used : Nat} {s : Source} (hfuel : s.data.length < fuel) (hroom : used < room)
    (taken : Array UInt8) : ∃ left : Source,
      readRest fuel room used taken s = (taken.appendList s.data, s.ending, left) ∧ left.cancelAt = s.cancelAt := by
  induction fuel generalizing room used taken s with
  | zero => omega
  | succ fuel ih =>
    obtain ⟨hbytes, hending, -⟩ := s.skipIdle.serve_spec (Nat.sub_pos_of_lt hroom)
    have hprogress := @progress_of_serve room used s.skipIdle hroom
    have hafter := s.skipIdle.serve_source (room - used)
    have hsame : (s.skipIdle.serve (room - used)).source.ending = s.ending ∧
        (s.skipIdle.serve (room - used)).source.cancelAt = s.cancelAt := by
      rw [hafter]
      exact ⟨rfl, rfl⟩
    have hdata : s.skipIdle.data = s.data := rfl
    rw [readRest]
    generalize s.skipIdle.serve (room - used) = d at *
    rcases hending with hnone | ⟨hsome, hnil⟩
    · obtain ⟨hless, hspace⟩ := hprogress hnone
      simp only [hnone]
      obtain ⟨left, hrest, hcancel⟩ := ih (Nat.lt_of_lt_of_le hless (Nat.le_of_lt_succ hfuel)) hspace
        (taken.appendList d.bytes)
      refine ⟨left, ?_, hcancel.trans hsame.2⟩
      have hwhole : (taken.appendList d.bytes).appendList d.source.data = taken.appendList s.data := by
        rw [← hdata, ← hbytes]
        exact List.foldl_append.symm
      rw [hrest, hwhole, hsame.1]
    · simp only [hsome]
      refine ⟨d.source, ?_, hsame.2⟩
      rw [hnil, List.append_nil, hdata] at hbytes
      rw [hbytes]
      rfl

/-- Reads to the ending call by call, empty reads among them, in at most so many calls. -/
def readEach : Nat → Nat → Nat → Array UInt8 → Source → Option (Array UInt8 × Fault × Source)
  | 0, _, _, _, _ => none
  | calls + 1, room, used, taken, s =>
    let d := s.read (room - used)
    let used := used + d.bytes.length
    let taken := taken.appendList d.bytes
    match d.ending with
    | some fault => some (taken, fault, d.source)
    | none => readEach calls (if used = room then room + (room + 768) / 4 else room) used taken d.source

theorem readEach_skipIdle {room used : Nat} (hroom : used < room) (calls : Nat) (taken : Array UInt8) (s : Source) :
    readEach (s.idle + calls) room used taken s = readEach calls room used taken s.skipIdle := by
  generalize hi : s.idle = idle
  induction idle generalizing s with
  | zero => rw [Nat.zero_add, skipIdle_of_idle hi]
  | succ n ih =>
    obtain ⟨hread, hskip⟩ := read_of_idle_succ hi (room - used)
    have hfull : ¬used = room := Nat.ne_of_lt hroom
    rw [← hskip, ← ih { s with calls := s.calls + 1, idle := n } rfl, Nat.add_right_comm, readEach]
    simp only [hread, List.length_nil, Nat.add_zero, if_neg hfull]
    rfl

/-- Skipping the empty reads does what making them does. -/
theorem readEach_eq_readRest {fuel room used : Nat} {s : Source} (hfuel : s.data.length < fuel) (hroom : used < room)
    (taken : Array UInt8) : ∃ calls, readEach calls room used taken s = some (readRest fuel room used taken s) := by
  induction fuel generalizing room used taken s with
  | zero => omega
  | succ fuel ih =>
    have hread : s.skipIdle.read (room - used) = s.skipIdle.serve (room - used) := read_of_idle rfl _
    rw [readRest]
    cases hending : (s.skipIdle.serve (room - used)).ending with
    | some fault =>
      refine ⟨s.idle + 1, ?_⟩
      rw [readEach_skipIdle hroom, readEach]
      simp only [hread, hending]
    | none =>
      obtain ⟨hless, hspace⟩ := progress_of_serve hroom hending
      obtain ⟨calls, hcalls⟩ := ih (Nat.lt_of_lt_of_le hless (Nat.le_of_lt_succ hfuel)) hspace
        (taken.appendList (s.skipIdle.serve (room - used)).bytes)
      refine ⟨s.idle + (calls + 1), ?_⟩
      rw [readEach_skipIdle hroom, readEach]
      simp only [hread, hending]
      exact hcalls

theorem readAll_eq (s : Source) : ∃ left : Source, left.cancelAt = s.cancelAt ∧
    s.readAll = (if s.ending = .bare .endOfInput then .ok s.data.toArray else .error s.ending, left) := by
  obtain ⟨left, hrest, hcancel⟩ := readRest_eq (Nat.lt_succ_self s.data.length) (show 0 < 512 by decide) #[]
  refine ⟨left, hcancel, ?_⟩
  have hwhole : #[].appendList s.data = s.data.toArray := by simp
  rw [readAll, hrest, hwhole]

/-- The signal once a source has been read whole: one of the reads may have cancelled. -/
def signalAfter (source : Source) (signal : Signal) : Signal :=
  signal.cancelIf (source.readAll.2.hasCancelledSince source.calls)

theorem signalAfter_of_calm {source : Source} (h : source.cancelAt ≤ source.calls) (signal : Signal) :
    source.signalAfter signal = signal := by
  obtain ⟨left, hcancel, hread⟩ := source.readAll_eq
  have hcalm : left.hasCancelledSince source.calls = false := by
    simp only [hasCancelledSince, hcancel, Bool.and_eq_false_iff, decide_eq_false_iff_not]
    omega
  rw [signalAfter, hread, hcalm]
  cases signal <;> rfl

end Source

namespace Session

/-- A source that could not be read whole is refused. -/
def refusal (s : Session) (ending : Fault) (signal : Signal) : Submission :=
  { session := s, fault := some (.during "reading source" ending), signal }

theorem turnOfSource_eq (s : Session) (fuel : Nat) (signal : Signal) (source : Source) :
    s.turnOfSource fuel signal source =
      if source.ending = .bare .endOfInput then
        (s.turn fuel (source.signalAfter signal) source.data.toArray).map Turn.submission
      else some (s.refusal source.ending (source.signalAfter signal)) := by
  obtain ⟨left, -, hread⟩ := source.readAll_eq
  simp only [turnOfSource, Source.signalAfter, hread]
  by_cases hending : source.ending = .bare .endOfInput
  · simp only [if_pos hending]
  · simp only [if_neg hending]
    rfl

/-- A submission is the turn `t`, in every respect that both of them tell. -/
structure Submission.IsTurn (r : Submission) (t : Turn) : Prop where
  session : r.session = t.session
  result : r.result = some t.result
  fault : r.fault = t.fault
  records : r.records = t.records
  signal : r.signal = t.signal

/-- **A source is run whole or not at all.** With the plain end of the input behind its data, handing a source to a
session is a turn of the data, whatever the reads were like. With any other ending, also one in which the end of the input
occurs, there is no result, the fault tells the ending, and the session is as it was. -/
theorem source_whole_or_nothing (s : Session) (fuel : Nat) (signal : Signal) (source : Source) :
    (source.ending = .bare .endOfInput → Option.Rel Submission.IsTurn (s.turnOfSource fuel signal source)
      (s.turn fuel (source.signalAfter signal) source.data.toArray)) ∧
    (source.ending ≠ .bare .endOfInput → ∃ r, s.turnOfSource fuel signal source = some r ∧ r.session = s ∧
      r.result = none ∧ r.records = [] ∧ r.fault = some (.during "reading source" source.ending)) ∧
    (source.cancelAt ≤ source.calls → source.signalAfter signal = signal) := by
  refine ⟨fun hplain => ?_, fun hother => ?_, fun hcalm => Source.signalAfter_of_calm hcalm signal⟩
  · rw [turnOfSource_eq, if_pos hplain]
    cases s.turn fuel (source.signalAfter signal) source.data.toArray with
    | none => exact .none
    | some t => exact .some ⟨rfl, rfl, rfl, rfl, rfl⟩
  · exact ⟨s.refusal source.ending (source.signalAfter signal), by rw [turnOfSource_eq, if_neg hother],
      rfl, rfl, rfl, rfl⟩

/-- The program `+.` byte by byte with empty reads in between: run behind the plain end of the input, and not behind an
ending that wraps it. -/
theorem source_whole_or_nothing_wrapped :
    let s : Session := { options := { tapeSize := 2 }, store := ⟨8, Tape.blank 2⟩, sink := some {} }
    let plain : Source := { data := [0x2b, 0x2e], pacing := ⟨fun _ => 1, fun n => n + 3⟩, endsWithData := true }
    let wrapping : Source := { plain with ending := .during "pipe" (.bare .endOfInput) }
    (∃ r t, s.turnOfSource 3 .clear plain = some r ∧ s.turn 3 .clear #[0x2b, 0x2e] = some t ∧ r.session = t.session ∧
      r.result = some { steps := 2, written := 1, stop := .finished } ∧ r.fault = none ∧ r.records = t.records ∧
      r.signal = .clear ∧ r.session.turns = 1 ∧ r.session.sink.map (·.delivered) = some #[1]) ∧
    wrapping.ending.isA .endOfInput = true ∧
    ∃ r, s.turnOfSource 3 .clear wrapping = some r ∧ r.session = s ∧ r.result = none := by
  intro s plain wrapping
  obtain ⟨hwhole, -, hcalm⟩ := s.source_whole_or_nothing 3 .clear plain
  obtain ⟨-, hnothing, -⟩ := s.source_whole_or_nothing 3 .clear wrapping
  obtain ⟨refused, hrefused, hsession, hresult, -⟩ := hnothing (by decide)
  have hrun : (s.turn 3 .clear #[0x2b, 0x2e]).map
      (fun t => ((t.result, t.fault, t.signal), t.session.turns, t.session.sink.map (·.delivered))) =
      some (({ steps := 2, written := 1, stop := .finished }, none, .clear), 1, some #[1]) := by decide +kernel
  have hplain := hwhole rfl
  rw [hcalm (Nat.le_refl 0)] at hplain
  obtain ⟨t, hturn, hdata⟩ := Option.map_eq_some_iff.mp hrun
  simp only [Prod.mk.injEq] at hdata
  obtain ⟨⟨hdone, hfault, hsignal⟩, hturns, hsink⟩ := hdata
  rw [show plain.data.toArray = #[0x2b, 0x2e] from rfl, hturn] at hplain
  generalize s.turnOfSource 3 .clear plain = submitted at hplain ⊢
  cases hplain with
  | some h =>
    exact ⟨⟨_, t, rfl, hturn, h.session, h.result.trans (congrArg some hdone), h.fault.trans hfault, h.records,
      h.signal.trans hsignal, h.session ▸ hturns, h.session ▸ hsink⟩, rfl, refused, hrefused, hsession, hresult⟩

end Session
end TapeMachine
