import Mathlib.Data.List.TakeDrop
import TapeMachine.Prompt.Line
import TapeMachine.Proofs.Supply

/-! Lines and bytes from one buffered stream.

A feed hands out a list of bytes and then an ending (`Feed.Yields`), however its source spreads them over its reads.
`throughMark` is what a line is on the list itself, and `Yields.readThrough` says that a feed cuts the same line, also
where it is longer than the buffer and is put together from several slices. What is left on the list is what the feed
hands out afterwards. `lineText` is the line without its ending. `Feed.HandsOut` is the case of the plain end of the
input, where bytes and lines can be taken in turn. -/
namespace TapeMachine

/-! ### Lines of a list -/

/-- The bytes up to and with the first `mark`, or all of them if it does not occur, and those after it. -/
def throughMark (mark : UInt8) : List UInt8 → List UInt8 × List UInt8
  | [] => ([], [])
  | b :: rest =>
    if b = mark then ([b], rest) else (b :: (throughMark mark rest).1, (throughMark mark rest).2)

variable {mark : UInt8} {bytes slice rest : List UInt8}

theorem throughMark_append (mark : UInt8) (bytes : List UInt8) :
    (throughMark mark bytes).1 ++ (throughMark mark bytes).2 = bytes := by
  induction bytes with
  | nil => rfl
  | cons b rest ih =>
    rw [throughMark]
    split
    · rfl
    · exact congrArg (b :: ·) ih

/-- There is a line where there is a byte. -/
theorem throughMark_ne_nil (mark : UInt8) (h : bytes ≠ []) : (throughMark mark bytes).1 ≠ [] := by
  cases bytes with
  | nil => exact absurd rfl h
  | cons b rest =>
    rw [throughMark]
    split
    · exact List.cons_ne_nil _ _
    · exact List.cons_ne_nil _ _

/-- So fewer bytes are left behind a line. -/
theorem length_throughMark_lt (mark : UInt8) (h : bytes ≠ []) :
    (throughMark mark bytes).2.length < bytes.length := by
  have hline := List.length_pos_iff.mpr (throughMark_ne_nil mark h)
  have hlength := congrArg List.length (throughMark_append mark bytes)
  rw [List.length_append] at hlength
  omega

/-- Bytes without the mark belong to the line that follows them. -/
theorem throughMark_append_of_not_mem (h : mark ∉ slice) (rest : List UInt8) :
    throughMark mark (slice ++ rest) = (slice ++ (throughMark mark rest).1, (throughMark mark rest).2) := by
  induction slice with
  | nil => rfl
  | cons b slice ih =>
    rw [List.mem_cons, not_or] at h
    rw [List.cons_append, throughMark, if_neg (Ne.symm h.1), ih h.2]
    rfl

theorem throughMark_of_not_mem (h : mark ∉ bytes) : throughMark mark bytes = (bytes, []) := by
  have happend := throughMark_append_of_not_mem h []
  rw [List.append_nil] at happend
  rw [happend, throughMark, List.append_nil]

namespace Feed

theorem cut?_cons (mark b : UInt8) (rest : List UInt8) :
    cut? mark (b :: rest) = if b = mark then some ([b], rest) else (cut? mark rest).map fun c => (b :: c.1, c.2) := by
  simp only [cut?, List.span_eq_takeWhile_dropWhile]
  by_cases hb : b = mark
  · simp [hb]
  · have hne : (b != mark) = true := bne_iff_ne.mpr hb
    simp only [List.takeWhile_cons, List.dropWhile_cons, hne, if_true, hb, if_false]
    cases rest.dropWhile (· != mark) with
    | nil => rfl
    | cons m after => rfl

/-- A mark in the buffer ends the line, whatever comes behind the buffer. -/
theorem throughMark_of_cut? (h : cut? mark bytes = some (slice, rest)) (more : List UInt8) :
    throughMark mark (bytes ++ more) = (slice, rest ++ more) ∧ mark ∈ bytes := by
  induction bytes generalizing slice rest with
  | nil => cases h
  | cons b bytes ih =>
    rw [cut?_cons] at h
    rw [List.cons_append, throughMark]
    by_cases hb : b = mark
    · rw [if_pos hb] at h ⊢
      obtain ⟨rfl, rfl⟩ := Prod.mk.inj (Option.some.inj h)
      exact ⟨rfl, hb ▸ List.mem_cons_self ..⟩
    · rw [if_neg hb] at h ⊢
      obtain ⟨⟨slice', rest'⟩, hcut, heq⟩ := Option.map_eq_some_iff.mp h
      obtain ⟨rfl, rfl⟩ := Prod.mk.inj heq
      obtain ⟨hthrough, hmem⟩ := ih hcut
      rw [hthrough]
      exact ⟨rfl, List.mem_cons_of_mem _ hmem⟩

theorem not_mem_of_cut? (h : cut? mark bytes = none) : mark ∉ bytes := by
  induction bytes with
  | nil => exact List.not_mem_nil
  | cons b rest ih =>
    rw [cut?_cons] at h
    by_cases hb : b = mark
    · rw [if_pos hb] at h
      cases h
    · rw [if_neg hb, Option.map_eq_none_iff] at h
      rw [List.mem_cons, not_or]
      exact ⟨Ne.symm hb, ih h⟩

/-! ### What a feed hands out -/

/-- The feed hands out these bytes and then reports `ending`, for ever, and its source cancels at the call
`cancelAt`. -/
structure Yields (ending : Fault) (cancelAt : Nat) (bytes : List UInt8) (f : Feed) : Prop where
  patient : f.IsPatient
  pending : f.pending = bytes
  cancels : f.source.cancelAt = cancelAt
  ends : f.source.ending = ending
  fault : ∀ fault, f.fault = some fault → fault = ending ∧ f.source.data = []

section
variable {ending : Fault} {cancelAt : Nat}

namespace Yields
variable {f g : Feed}

/-- Filling a feed changes nothing in what it hands out. -/
theorem filled (h : f.Yields ending cancelAt bytes) (hfill : f.FilledTo g) : g.Yields ending cancelAt bytes := by
  refine ⟨hfill.patient, hfill.pending.trans h.pending, hfill.cancelAt.trans h.cancels, hfill.ending.trans h.ends,
    fun fault hfault => ?_⟩
  rcases hfill.fault with hnone | ⟨hsome, hnil⟩
  · cases hnone.symm.trans hfault
  · exact ⟨(Option.some.inj (hsome.symm.trans hfault)).symm.trans h.ends, hnil⟩

/-- The buffer may be emptied from the front. -/
theorem drop (h : f.Yields ending cancelAt bytes) (rest : List UInt8) :
    Yields ending cancelAt (rest ++ f.source.data) { f with buffer := rest } :=
  ⟨⟨h.patient.idle, h.patient.gaps⟩, rfl, h.cancels, h.ends, h.fault⟩

/-- Behind the last byte the ending is reported and forgotten. -/
theorem report (h : f.Yields ending cancelAt bytes) {fault : Fault} (hfault : f.fault = some fault) :
    f.report.1 = ending ∧ f.source.data = [] ∧ Yields ending cancelAt [] { f.report.2 with buffer := [] } := by
  obtain ⟨hsame, hdata⟩ := h.fault fault hfault
  refine ⟨?_, hdata, ⟨h.patient.idle, h.patient.gaps⟩, ?_, h.cancels, h.ends, fun _ hnone => by cases hnone⟩
  · rw [Feed.report, hfault]
    exact hsame
  · show [] ++ f.source.data = []
    rw [hdata]
    rfl

end Yields

/-! ### Slices -/

/-- What a slice can be of the bytes that a feed hands out, whose source has `n` bytes left, with the feed that hands
out the rest. -/
inductive Sliced (ending : Fault) (cancelAt : Nat) (mark : UInt8) (n : Nat) :
    List UInt8 → List UInt8 × SliceEnd × Feed → Prop
  | marked {bytes : List UInt8} {g : Feed} : mark ∈ bytes → g.Yields ending cancelAt (throughMark mark bytes).2 →
      Sliced ending cancelAt mark n bytes ((throughMark mark bytes).1, .marked, g)
  | ended {bytes : List UInt8} {g : Feed} : mark ∉ bytes → g.Yields ending cancelAt [] →
      Sliced ending cancelAt mark n bytes (bytes, .ended ending, g)
  /-- The buffer is full and holds no mark. -/
  | full {slice rest : List UInt8} {g : Feed} : mark ∉ slice → slice ≠ [] → g.Yields ending cancelAt rest →
      g.buffer = [] → rest.length ≤ n → Sliced ending cancelAt mark n (slice ++ rest) (slice, .full, g)

theorem Sliced.mono {n k : Nat} {r : List UInt8 × SliceEnd × Feed} (h : Sliced ending cancelAt mark n bytes r)
    (hle : n ≤ k) : Sliced ending cancelAt mark k bytes r := by
  cases h with
  | marked hmem hleft => exact .marked hmem hleft
  | ended hfree hleft => exact .ended hfree hleft
  | full hfree hne hleft hempty hrest => exact .full hfree hne hleft hempty (Nat.le_trans hrest hle)

/-- Every round finds the mark or the ending, or fills the buffer by at least one byte; so there are rounds enough. -/
theorem Yields.readSliceWithin {rounds : Nat} {f : Feed} (h : f.Yields ending cancelAt bytes)
    (hrounds : f.source.data.length + 2 ≤ rounds ∨ f.fault.isSome = true ∧ 1 ≤ rounds) :
    Sliced ending cancelAt mark f.source.data.length bytes (Feed.readSliceWithin mark rounds f) := by
  induction rounds generalizing f with
  | zero => omega
  | succ rounds ih =>
    have hpending : f.buffer ++ f.source.data = bytes := h.pending
    rw [Feed.readSliceWithin]
    cases hcut : cut? mark f.buffer with
    | some parts =>
      obtain ⟨slice, rest⟩ := parts
      obtain ⟨hthrough, hmem⟩ := throughMark_of_cut? hcut f.source.data
      rw [hpending] at hthrough
      have hleft : Yields ending cancelAt (throughMark mark bytes).2 { f with buffer := rest } := by
        rw [hthrough]
        exact h.drop rest
      have hmarked : Sliced ending cancelAt mark f.source.data.length bytes ((throughMark mark bytes).1, .marked, _) :=
        .marked (hpending ▸ List.mem_append_left _ hmem) hleft
      rw [hthrough] at hmarked
      exact hmarked
    | none =>
      have hfree := not_mem_of_cut? hcut
      cases hfault : f.fault with
      | some fault =>
        obtain ⟨htold, hdata, hleft⟩ := h.report hfault
        rw [hdata, List.append_nil] at hpending
        subst hpending
        simp only [Option.isSome_some, if_true, htold]
        exact .ended hfree hleft
      | none =>
        simp only [Option.isSome_none, Bool.false_eq_true, if_false]
        by_cases hfull : capacity ≤ f.buffer.length
        · rw [if_pos hfull, ← hpending]
          have hne : f.buffer ≠ [] := List.ne_nil_of_length_pos (Nat.lt_of_lt_of_le (by decide) hfull)
          have hleft : Yields ending cancelAt f.source.data { source := f.source } := by
            have hdrop : Yields ending cancelAt f.source.data { f with buffer := [] } := h.drop []
            rw [hfault] at hdrop
            exact hdrop
          exact .full hfree hne hleft rfl (Nat.le_refl _)
        · rw [if_neg hfull]
          have hfill := fill_of_isPatient h.patient (Nat.lt_of_not_le hfull) hfault
          have hmany : f.source.data.length + 1 ≤ rounds := by
            simp only [hfault, Option.isSome_none, Bool.false_eq_true, false_and, or_false] at hrounds
            omega
          rcases hfill.progress with hless | hsome
          · exact (ih (h.filled hfill) (.inl (by omega))).mono (Nat.le_of_lt hless)
          · have hdata := ((h.filled hfill).fault _ hsome).2
            have hlast := ih (h.filled hfill) (.inr ⟨by rw [hsome]; rfl, by omega⟩)
            rw [hdata] at hlast
            exact hlast.mono (Nat.zero_le _)

theorem Yields.readSlice {f : Feed} (h : f.Yields ending cancelAt bytes) (mark : UInt8) :
    Sliced ending cancelAt mark f.source.data.length bytes (f.readSlice mark) := h.readSliceWithin (.inl (Nat.le_refl _))

/-! ### Lines -/

/-- A line put together from slices. -/
structure ReadsThrough (ending : Fault) (cancelAt : Nat) (mark : UInt8) (bytes taken : List UInt8)
    (r : List UInt8 × Option Fault × Feed) : Prop where
  line : r.1 = taken ++ (throughMark mark bytes).1
  left : r.2.2.Yields ending cancelAt (throughMark mark bytes).2
  fault : (r.2.1 = none ∧ mark ∈ bytes) ∨ (r.2.1 = some ending ∧ mark ∉ bytes)

/-- A slice that fills the buffer is followed by one that starts with an empty buffer; each of these takes a byte from
the source, which bounds their number. -/
theorem Yields.readThroughWithin {rounds : Nat} {f : Feed} (h : f.Yields ending cancelAt bytes) (taken : List UInt8)
    (hrounds : f.source.data.length + 2 ≤ rounds ∨ f.buffer = [] ∧ f.source.data.length + 1 ≤ rounds) :
    ReadsThrough ending cancelAt mark bytes taken (Feed.readThroughWithin mark rounds taken f) := by
  induction rounds generalizing f bytes taken with
  | zero => omega
  | succ rounds ih =>
    have hslice := h.readSlice mark
    have hpending : f.buffer ++ f.source.data = bytes := h.pending
    rw [Feed.readThroughWithin]
    generalize f.readSlice mark = r at hslice
    cases hslice with
    | marked hmem hleft => exact ⟨rfl, hleft, .inl ⟨rfl, hmem⟩⟩
    | ended hfree hleft =>
      refine ⟨?_, ?_, .inr ⟨rfl, hfree⟩⟩
      · rw [throughMark_of_not_mem hfree]
      · rw [throughMark_of_not_mem hfree]
        exact hleft
    | @full slice rest g hfree hne hleft hempty hle =>
      have hdata : g.source.data = rest := by rw [← hleft.pending, Feed.pending, hempty, List.nil_append]
      have hshort : rest.length + 1 ≤ rounds := by
        rcases hrounds with hmany | ⟨hnone, hmany⟩
        · omega
        · -- With an empty buffer the slice comes from the source.
          have hlength := congrArg List.length hpending
          have hpos := List.length_pos_iff.mpr hne
          rw [hnone, List.nil_append, List.length_append] at hlength
          omega
      have hlater := ih hleft (taken ++ slice) (.inr ⟨hempty, by rw [hdata]; exact hshort⟩)
      have hthrough := throughMark_append_of_not_mem hfree rest
      refine ⟨?_, ?_, hlater.fault.imp (fun hmarked => ⟨hmarked.1, List.mem_append_right _ hmarked.2⟩)
        fun hended => ⟨hended.1, fun hmem => (List.mem_append.mp hmem).elim hfree hended.2⟩⟩
      · rw [hthrough, ← List.append_assoc]
        exact hlater.line
      · rw [hthrough]
        exact hlater.left

theorem Yields.readThrough {f : Feed} (h : f.Yields ending cancelAt bytes) (mark : UInt8) :
    ReadsThrough ending cancelAt mark bytes [] (f.readThrough mark) := h.readThroughWithin [] (.inl (Nat.le_refl _))

end

end Feed

/-- A line without its ending: a newline, a carriage return, or the one before the other. -/
def lineText : List UInt8 → List UInt8
  | [] => []
  | b :: rest => if b :: rest ∈ [[13, 10], [10], [13]] then [] else b :: lineText rest

namespace Prompt

theorem dropLastIf_cons (b : UInt8) (h : rest ≠ []) : dropLastIf mark (b :: rest) = b :: dropLastIf mark rest := by
  obtain ⟨c, rest, rfl⟩ := List.exists_cons_of_ne_nil h
  simp only [dropLastIf, List.getLast?_cons_cons, List.dropLast_cons_cons]
  split <;> rfl

theorem dropLastIf_eq_nil_iff : dropLastIf mark rest = [] ↔ rest = [] ∨ rest = [mark] := by
  rcases rest with _ | ⟨b, _ | ⟨c, rest⟩⟩
  · simp [dropLastIf]
  · simp [dropLastIf]
  · simp [dropLastIf_cons]

/-- The ending is cut off once: bytes that look like one before it are kept. -/
theorem trimEnding_eq_lineText (line : List UInt8) : trimEnding line = lineText line := by
  induction line with
  | nil => rfl
  | cons b rest ih =>
    rw [lineText]
    by_cases hlast : dropLastIf newline rest = []
    · rcases dropLastIf_eq_nil_iff.mp hlast with rfl | rfl
      · by_cases hfeed : b = 10
        · subst hfeed
          rfl
        · by_cases hreturn : b = 13
          · subst hreturn
            rfl
          · simp [trimEnding, dropLastIf, newline, carriageReturn, hfeed, hreturn, lineText]
      · by_cases hreturn : b = 13
        · subst hreturn
          rfl
        · simp [trimEnding, dropLastIf, newline, carriageReturn, hreturn, lineText]
    · -- More than an ending follows, so `b` is text.
      obtain ⟨hempty, hfeed⟩ := not_or.mp (mt dropLastIf_eq_nil_iff.mpr hlast)
      have hno : b :: rest ∉ [[13, 10], [10], [13]] := by
        simp only [newline] at hfeed
        simp [hempty, hfeed]
      rw [if_neg hno, ← ih, trimEnding, dropLastIf_cons b hempty, dropLastIf_cons b hlast]
      rfl

end Prompt

/-- The next line of a feed is that of the list it hands out, without its ending. Where no line is left, the ending is
reported; bytes behind the last newline are a line only at the end of the input. -/
theorem Feed.Yields.nextLine {ending : Fault} {cancelAt : Nat} {f : Feed} (h : f.Yields ending cancelAt bytes) :
    (Prompt.nextLine f).2.Yields ending cancelAt (throughMark 10 bytes).2 ∧
      (Prompt.nextLine f).1 = if 10 ∈ bytes ∨ ending.isA .endOfInput = true ∧ bytes ≠ []
        then .ok (lineText (throughMark 10 bytes).1) else .error ending := by
  have hread : ReadsThrough ending cancelAt 10 bytes [] (f.readThrough Prompt.newline) := h.readThrough Prompt.newline
  unfold Prompt.nextLine
  generalize f.readThrough Prompt.newline = r at hread ⊢
  obtain ⟨line, fault, g⟩ := r
  obtain ⟨hline, hleft, hfault⟩ := hread
  obtain rfl : line = (throughMark 10 bytes).1 := hline
  rw [← Prompt.trimEnding_eq_lineText]
  rcases hfault with ⟨hnone, hmem⟩ | ⟨hsome, hfree⟩
  · obtain rfl : fault = none := hnone
    exact ⟨hleft, (if_pos (.inl hmem)).symm⟩
  · obtain rfl : fault = some ending := hsome
    rw [throughMark_of_not_mem hfree] at hleft ⊢
    by_cases hline : ending.isA .endOfInput = true ∧ bytes ≠ []
    · rw [if_pos (.inr hline)]
      simp only [hline.1, List.isEmpty_eq_false_iff.mpr hline.2, Bool.not_false, Bool.and_self, if_true]
      exact ⟨hleft, trivial⟩
    · have hnone : (ending.isA .endOfInput && !bytes.isEmpty) = false := by
        simpa using hline
      rw [if_neg fun hor => hor.elim hfree hline]
      simp only [hnone, Bool.false_eq_true, if_false]
      exact ⟨hleft, trivial⟩

/-! ### The end of the input -/

namespace Feed

/-- The feed hands out these bytes and then the plain end of the input, for ever, and no call of its source cancels
anything. -/
structure HandsOut (f : Feed) (bytes : List UInt8) : Prop where
  sound : f.IsSound
  pending : f.pending = bytes
  quiet : f.source.cancelAt = 0
  ending : f.source.ending = .bare .endOfInput
  fault : ∀ fault, f.fault = some fault → fault = .bare .endOfInput

theorem handsOut_iff {f : Feed} : f.HandsOut bytes ↔ f.Yields (.bare .endOfInput) 0 bytes := by
  constructor
  · intro h
    exact ⟨h.sound.patient, h.pending, h.quiet, h.ending, fun fault hf => ⟨h.fault fault hf, (h.sound.fault fault hf).2⟩⟩
  · intro h
    refine ⟨⟨⟨?_, ?_⟩, h.patient.idle, h.patient.gaps, fun fault hf => ?_⟩, h.pending, h.cancels, h.ends,
      fun fault hf => (h.fault fault hf).1⟩
    · rw [h.ends]
      rfl
    · rw [h.cancels]
      exact Nat.zero_le _
    · obtain ⟨rfl, hdata⟩ := h.fault fault hf
      exact ⟨rfl, hdata⟩

/-- The answer to a read where these bytes are left. -/
def nextAnswer : List UInt8 → Except Fault UInt8
  | [] => .error (.bare .endOfInput)
  | b :: _ => .ok b

/-- One byte: the first is handed out, or the end of the input reported. -/
theorem HandsOut.readByte {f : Feed} (h : f.HandsOut bytes) :
    f.readByte.1 = nextAnswer bytes ∧ f.readByte.2.HandsOut bytes.tail := by
  simp only [handsOut_iff] at h ⊢
  have hready {g : Feed} (hg : g.Yields (.bare .endOfInput) 0 bytes)
      (hready : (g.buffer.isEmpty && g.fault.isNone) = false) :
      g.readByte.1 = nextAnswer bytes ∧ g.readByte.2.Yields (.bare .endOfInput) 0 bytes.tail := by
    obtain ⟨source, buffer, fault⟩ := g
    cases buffer with
    | cons b rest =>
      obtain rfl : b :: (rest ++ source.data) = bytes := hg.pending
      simp only [Feed.readByte, hready, Bool.false_eq_true, if_false]
      exact ⟨rfl, hg.drop rest⟩
    | nil =>
      cases fault with
      | none => cases hready
      | some fault =>
        obtain ⟨htold, hdata, hleft⟩ := hg.report rfl
        obtain rfl : [] = bytes := by
          rw [← hg.pending]
          exact hdata.symm
        simp only [Feed.readByte, hready, Bool.false_eq_true, if_false]
        exact ⟨congrArg Except.error htold, hleft⟩
  cases hempty : (f.buffer.isEmpty && f.fault.isNone) with
  | false => exact hready h hempty
  | true =>
    rw [Bool.and_eq_true, List.isEmpty_iff, Option.isNone_iff_eq_none] at hempty
    obtain ⟨hfill, hfilled, hsame⟩ := readByte_of_empty h.patient hempty.1 hempty.2
    rw [hsame]
    exact hready (h.filled hfill) hfilled

/-- At the end of the input every byte belongs to a line. -/
theorem HandsOut.nextLine {f : Feed} (h : f.HandsOut bytes) :
    (Prompt.nextLine f).2.HandsOut (throughMark 10 bytes).2 ∧
      (Prompt.nextLine f).1 = if bytes = [] then .error (.bare .endOfInput)
        else .ok (lineText (throughMark 10 bytes).1) := by
  obtain ⟨hleft, hanswer⟩ := (handsOut_iff.mp h).nextLine
  refine ⟨handsOut_iff.mpr hleft, ?_⟩
  by_cases hbytes : bytes = []
  · subst hbytes
    exact hanswer
  · rw [hanswer, if_neg hbytes, if_pos (.inr ⟨rfl, hbytes⟩)]

end Feed
end TapeMachine
