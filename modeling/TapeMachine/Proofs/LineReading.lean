import Mathlib.Data.List.Basic
import TapeMachine.Proofs.Lines

/-! A stream read line by line.

The newlines of a stream cut it into segments, and what stands behind the last one is the remainder. `linesOf` is what
somebody gets who asks for one line after the other: the text of every segment, and that of the remainder if there is
one and the stream ends with the end of the input. Each line asked for is the first of these, and the feed is left with a
stream that has the others (`Feed.Yields.takesLine`); so asking again and again gives all of them in order, and then the
ending for ever (`answers_eq`). -/
namespace TapeMachine
namespace Prompt

/-! ### Segments -/

/-- The segments that a newline ends, without it. -/
def segments (bytes : List UInt8) : List (List UInt8) := (bytes.splitOn newline).dropLast

/-- The bytes behind the last newline. -/
def remainder (bytes : List UInt8) : List UInt8 := (bytes.splitOn newline).getLastD []

/-- What a segment says: a carriage return at its end is left out, and those before it are kept. -/
def textOf (segment : List UInt8) : List UInt8 := (segment.dropSuffix? [carriageReturn]).getD segment

/-- The lines of a stream of `bytes` with `ending` behind them. -/
def linesOf (ending : Fault) (bytes : List UInt8) : List (List UInt8) :=
  (segments bytes).map textOf ++
    if ending.isA .endOfInput = true ∧ remainder bytes ≠ [] then [textOf (remainder bytes)] else []

section
variable {bytes segment : List UInt8}

/-- Every list is without a newline, or a segment and its newline come before another list. -/
theorem segment_induction {motive : List UInt8 → Prop} (free : ∀ bytes, newline ∉ bytes → motive bytes)
    (line : ∀ segment rest, newline ∉ segment → motive rest → motive (segment ++ newline :: rest))
    (bytes : List UInt8) : motive bytes := by
  by_cases hmem : newline ∈ bytes
  · obtain ⟨segment, rest, rfl, hfree⟩ := List.eq_append_cons_of_mem hmem
    exact line segment rest hfree (segment_induction free line rest)
  · exact free bytes hmem
termination_by bytes.length
decreasing_by
  subst_vars
  rw [List.length_append, List.length_cons]
  omega

theorem splitOn_line (h : newline ∉ segment) (rest : List UInt8) :
    (segment ++ newline :: rest).splitOn newline = segment :: rest.splitOn newline := by
  simp only [List.splitOn_eq_splitOnP]
  have hfree : ∀ b ∈ segment, (b == newline) = false := fun b hb => beq_false_of_ne fun heq => h (heq ▸ hb)
  exact List.splitOnP_append_cons_of_forall_mem (p := (· == newline)) hfree newline (beq_self_eq_true _) rest

theorem segments_line (h : newline ∉ segment) (rest : List UInt8) :
    segments (segment ++ newline :: rest) = segment :: segments rest := by
  rw [segments, splitOn_line h, List.dropLast_cons_of_ne_nil (List.splitOn_ne_nil _ _), segments]

theorem remainder_line (h : newline ∉ segment) (rest : List UInt8) :
    remainder (segment ++ newline :: rest) = remainder rest := by
  obtain ⟨first, more, hmore⟩ := List.exists_cons_of_ne_nil (List.splitOn_ne_nil newline rest)
  rw [remainder, remainder, splitOn_line h, hmore]
  rfl

theorem segments_of_not_mem (h : newline ∉ bytes) : segments bytes = [] := by
  rw [segments, List.splitOn_eq_singleton h]
  rfl

theorem remainder_of_not_mem (h : newline ∉ bytes) : remainder bytes = bytes := by
  rw [remainder, List.splitOn_eq_singleton h]
  rfl

theorem length_segments (bytes : List UInt8) : (segments bytes).length = bytes.count newline := by
  induction bytes using segment_induction with
  | free bytes h => rw [segments_of_not_mem h, List.count_eq_zero_of_not_mem h, List.length_nil]
  | line segment rest h ih =>
    rw [segments_line h, List.length_cons, ih, List.count_append, List.count_eq_zero_of_not_mem h, List.count_cons_self,
      Nat.zero_add]

/-- No byte is lost between the segments and the remainder. -/
theorem flatMap_segments (bytes : List UInt8) :
    (segments bytes).flatMap (· ++ [newline]) ++ remainder bytes = bytes := by
  induction bytes using segment_induction with
  | free bytes h => rw [segments_of_not_mem h, remainder_of_not_mem h, List.flatMap_nil, List.nil_append]
  | line segment rest h ih =>
    rw [segments_line h, remainder_line h, List.flatMap_cons, List.append_assoc, ih, List.append_assoc,
      List.singleton_append]

/-- Something remains unless there is nothing, or a newline comes last. -/
theorem remainder_ne_nil_iff (bytes : List UInt8) :
    remainder bytes ≠ [] ↔ bytes ≠ [] ∧ bytes.getLast? ≠ some newline := by
  induction bytes using segment_induction with
  | free bytes h =>
    rw [remainder_of_not_mem h]
    exact ⟨fun hne => ⟨hne, fun hlast => h (List.mem_of_getLast? hlast)⟩, And.left⟩
  | line segment rest h ih =>
    rw [remainder_line h, ih]
    cases rest with
    | nil => simp
    | cons b rest => simp [List.getLast?_append, List.getLast?_cons_cons]

/-! ### Lines -/

theorem linesOf_line (ending : Fault) (h : newline ∉ segment) (rest : List UInt8) :
    linesOf ending (segment ++ newline :: rest) = textOf segment :: linesOf ending rest := by
  rw [linesOf, segments_line h, remainder_line h, List.map_cons, List.cons_append, linesOf]

theorem linesOf_of_not_mem (ending : Fault) (h : newline ∉ bytes) :
    linesOf ending bytes = if ending.isA .endOfInput = true ∧ bytes ≠ [] then [textOf bytes] else [] := by
  rw [linesOf, segments_of_not_mem h, remainder_of_not_mem h, List.map_nil, List.nil_append]

theorem linesOf_nil (ending : Fault) : linesOf ending [] = [] := by
  rw [linesOf_of_not_mem ending List.not_mem_nil, if_neg fun h => h.2 rfl]

theorem length_linesOf (ending : Fault) (bytes : List UInt8) :
    (linesOf ending bytes).length = bytes.count newline +
      if ending.isA .endOfInput = true ∧ bytes ≠ [] ∧ bytes.getLast? ≠ some newline then 1 else 0 := by
  simp only [linesOf, List.length_append, List.length_map, length_segments, remainder_ne_nil_iff]
  split <;> rfl

theorem dropLastIf_eq (b : UInt8) (line : List UInt8) : dropLastIf b line = (line.dropSuffix? [b]).getD line := by
  unfold dropLastIf
  cases hdrop : line.dropSuffix? [b] with
  | some text =>
    obtain ⟨last, rfl, hlast⟩ := List.dropSuffix?_eq_some_iff.mp hdrop
    obtain rfl := eq_of_beq hlast
    rw [List.getLast?_concat, if_pos rfl, List.dropLast_concat, Option.getD_some]
  | none =>
    have hother : line.getLast? ≠ some b := by
      intro hlast
      obtain ⟨text, rfl⟩ := List.getLast?_eq_some_iff.mp hlast
      cases hdrop.symm.trans (List.dropSuffix?_eq_some_iff.mpr ⟨[b], rfl, beq_self_eq_true _⟩)
    rw [if_neg hother, Option.getD_none]

/-- A segment with its newline is trimmed to its text. -/
theorem trimEnding_line (segment : List UInt8) : trimEnding (segment ++ [newline]) = textOf segment := by
  have hnewline : dropLastIf newline (segment ++ [newline]) = segment := by
    rw [dropLastIf, List.getLast?_concat, if_pos rfl, List.dropLast_concat]
  rw [trimEnding, hnewline, dropLastIf_eq, textOf]

theorem trimEnding_of_not_mem (h : newline ∉ bytes) : trimEnding bytes = textOf bytes := by
  have hnewline : dropLastIf newline bytes = bytes := if_neg fun hlast => h (List.mem_of_getLast? hlast)
  rw [trimEnding, hnewline, dropLastIf_eq, textOf]

end
end Prompt

open Prompt

/-- The next line is the first one, and the others are left; without a line the ending is reported. -/
theorem Feed.Yields.takesLine {ending : Fault} {cancelAt : Nat} {bytes : List UInt8} {f : Feed}
    (h : f.Yields ending cancelAt bytes) : ∃ left, (Prompt.nextLine f).2.Yields ending cancelAt left ∧
      linesOf ending left = (linesOf ending bytes).tail ∧
      (Prompt.nextLine f).1 = (linesOf ending bytes).head?.elim (.error ending) .ok := by
  obtain ⟨hleft, hanswer⟩ : (Prompt.nextLine f).2.Yields ending cancelAt (throughMark newline bytes).2 ∧
      (Prompt.nextLine f).1 = if newline ∈ bytes ∨ ending.isA .endOfInput = true ∧ bytes ≠ []
        then .ok (lineText (throughMark newline bytes).1) else .error ending := h.nextLine
  refine ⟨_, hleft, ?_⟩
  rw [hanswer, ← trimEnding_eq_lineText]
  by_cases hmem : newline ∈ bytes
  · obtain ⟨segment, rest, rfl, hfree⟩ := List.eq_append_cons_of_mem hmem
    have hthrough : throughMark newline (segment ++ newline :: rest) = (segment ++ [newline], rest) := by
      rw [throughMark_append_of_not_mem hfree, throughMark, if_pos rfl]
    rw [hthrough, if_pos (.inl hmem), trimEnding_line, linesOf_line ending hfree]
    exact ⟨rfl, rfl⟩
  · rw [throughMark_of_not_mem hmem, trimEnding_of_not_mem hmem, linesOf_nil, linesOf_of_not_mem ending hmem]
    by_cases hline : ending.isA .endOfInput = true ∧ bytes ≠ []
    · have hany : newline ∈ bytes ∨ ending.isA .endOfInput = true ∧ bytes ≠ [] := .inr hline
      rw [if_pos hany, if_pos hline]
      exact ⟨rfl, rfl⟩
    · have hnone : ¬(newline ∈ bytes ∨ ending.isA .endOfInput = true ∧ bytes ≠ []) := not_or.mpr ⟨hmem, hline⟩
      rw [if_neg hnone, if_neg hline]
      exact ⟨rfl, rfl⟩

namespace Prompt

/-- The answers to prompts one after the other. -/
def LineReader.answers (r : LineReader) : List String → List (Except Fault (List UInt8))
  | [] => []
  | prompt :: rest => (r.ask prompt).1 :: (r.ask prompt).2.answers rest

/-- The first `n` answers where these lines are left: the lines, and the ending once they are used up. -/
def firstAnswers (ending : Fault) (lines : List (List UInt8)) (n : Nat) : List (Except Fault (List UInt8)) :=
  (lines.map .ok).take n ++ List.replicate (n - lines.length) (.error ending)

theorem firstAnswers_succ (ending : Fault) (lines : List (List UInt8)) (n : Nat) :
    firstAnswers ending lines (n + 1) = lines.head?.elim (.error ending) .ok :: firstAnswers ending lines.tail n := by
  cases lines with
  | nil => simp [firstAnswers, List.replicate_succ]
  | cons line lines => simp [firstAnswers]

theorem countP_firstAnswers (ending : Fault) (lines : List (List UInt8)) (n : Nat) :
    (firstAnswers ending lines n).countP Except.isOk = min n lines.length := by
  induction n generalizing lines with
  | zero => simp [firstAnswers]
  | succ n ih =>
    rw [firstAnswers_succ, List.countP_cons, ih]
    cases lines with
    | nil => simp [Except.isOk, Except.toBool]
    | cons line lines => simp [Except.isOk, Except.toBool]

theorem answers_eq {ending : Fault} {cancelAt : Nat} {bytes : List UInt8} {r : LineReader}
    (h : r.feed.Yields ending cancelAt bytes) (prompts : List String) :
    r.answers prompts = firstAnswers ending (linesOf ending bytes) prompts.length := by
  induction prompts generalizing r bytes with
  | nil => simp [LineReader.answers, firstAnswers]
  | cons prompt rest ih =>
    obtain ⟨left, hleft, hothers, hanswer⟩ := h.takesLine
    have hfirst : (r.ask prompt).1 = (linesOf ending bytes).head?.elim (.error ending) .ok := hanswer
    have hlater : (r.ask prompt).2.feed.Yields ending cancelAt left := hleft
    rw [LineReader.answers, hfirst, ih hlater, hothers, List.length_cons, firstAnswers_succ]

/-- **A stream is read out line by line.** Asking a reader again and again gives the lines of its source in order, however
these are spread over the reads, and then the ending for ever. The segments with their newlines and the remainder are the
whole data, so no byte is missed. There are as many lines as newlines, and one more where the end of the input comes
behind a remainder; so many of the answers are lines. -/
theorem lines_read_out {source : Source} (hsource : Feed.IsPatient { source }) (written : Option String)
    (prompts : List String) :
    let lines := linesOf source.ending source.data
    let answers := LineReader.answers { feed := { source }, written } prompts
    answers = firstAnswers source.ending lines prompts.length ∧
    (segments source.data).flatMap (· ++ [newline]) ++ remainder source.data = source.data ∧
    lines.length = source.data.count newline +
      (if source.ending.isA .endOfInput = true ∧ source.data ≠ [] ∧ source.data.getLast? ≠ some newline
        then 1 else 0) ∧
    answers.countP Except.isOk = min prompts.length lines.length := by
  intro lines answers
  have hfeed : Feed.Yields source.ending source.cancelAt source.data { source } :=
    ⟨hsource, rfl, rfl, rfl, fun _ hnone => by cases hnone⟩
  have hanswers : answers = firstAnswers source.ending lines prompts.length := answers_eq hfeed prompts
  refine ⟨hanswers, flatMap_segments _, length_linesOf _ _, ?_⟩
  rw [hanswers, countP_firstAnswers]

/-- Carriage returns before newlines, a lone one and one at the end, two bytes at a time with empty reads in between: with
an ending that wraps the end of the input the remainder is a line, and with another one it is dropped. -/
theorem lines_read_out_mixed :
    let piped : Source :=
      { data := [0x61, 13, 13, 10, 0x62, 10, 13, 0x63, 13], pacing := ⟨fun _ => 2, fun n => n % 100⟩,
        endsWithData := true, ending := .during "pipe" (.bare .endOfInput) }
    let broken : Source := { piped with ending := .told "broken" }
    let prompts := ["1", "2", "3", "4", "5"]
    LineReader.answers { feed := { source := piped } } prompts =
      [.ok [0x61, 13], .ok [0x62], .ok [13, 0x63], .error piped.ending, .error piped.ending] ∧
    LineReader.answers { feed := { source := broken } } prompts =
      [.ok [0x61, 13], .ok [0x62], .error broken.ending, .error broken.ending, .error broken.ending] := by
  intro piped broken prompts
  have hpiped : Feed.IsPatient { source := piped } := ⟨by decide, fun n => Nat.mod_lt n (by decide)⟩
  have hbroken : Feed.IsPatient { source := broken } := ⟨by decide, fun n => Nat.mod_lt n (by decide)⟩
  exact ⟨(lines_read_out hpiped none prompts).1.trans (by rfl), (lines_read_out hbroken none prompts).1.trans (by rfl)⟩

end Prompt
end TapeMachine
