import TapeMachine.Prompt.Loop
import TapeMachine.Proofs.Atomicity

/-! The prompt loop on answers that are laid down beforehand.

An answer of the line source lets the loop go on, if it is a line to run or an aborted prompt, or it ends it
(`Prompt.ends`). The loop hears the answers up to the first one that ends it and plays the lines among them as turns of
its session, one after the other and whatever faults they meet (`Prompt.Loop.Plays`). Each round takes one answer
(`Prompt.Loop.round_ends`, `round_warns`, `round_obeys`). So a loop whose signal stays clear comes to an end just if
each of these turns does, and what it leaves is known to the last event (`Prompt.Loop.conclusion`). -/
namespace TapeMachine.Prompt

/-! ### Scripts -/

/-- What a line source answers: a line, or why there is none. -/
abbrev Answer := Except Fault (List UInt8)

/-- The answer of a script that is used up. -/
def exhausted : Answer := .error (.bare .endOfInput)

/-- An answer that ends the loop: an empty line, the end of the lines, or any fault but an aborted prompt. -/
def ends : Answer → Bool
  | .ok line => line.isEmpty
  | .error fault => fault.isA .endOfInput || !fault.isA .aborted

/-- The answers before the one that ends the loop. -/
def heard (answers : List Answer) : List Answer := answers.takeWhile (!ends ·)

/-- The answer that ends the loop. -/
def stopping (answers : List Answer) : Answer := (answers.find? ends).getD exhausted

/-- The answers that the loop does not come to. -/
def unheard (answers : List Answer) : List Answer := (answers.dropWhile (!ends ·)).tail

/-- The lines to run. -/
def spoken (answers : List Answer) : List (List UInt8) := (heard answers).filterMap Except.toOption

/-- The aborted prompts. -/
def aborted (answers : List Answer) : List Answer := (heard answers).filter (!·.toOption.isSome)

/-- What a loop fails with that an answer has ended. -/
def outcome : Answer → Option Fault
  | .ok _ => none
  | .error fault => if fault.isA .endOfInput then none else some (.during "reading command" fault)

theorem outcome_eq_none_iff {answer : Answer} (hends : ends answer = true) :
    outcome answer = none ↔
      answer = .ok [] ∨ ∃ fault, answer = .error fault ∧ fault.isA .endOfInput = true := by
  cases answer with
  | ok line =>
    obtain rfl : line = [] := List.isEmpty_iff.mp hends
    exact ⟨fun _ => .inl rfl, fun _ => rfl⟩
  | error fault =>
    rw [outcome]
    split
    · next heof => exact ⟨fun _ => .inr ⟨fault, rfl, heof⟩, fun _ => rfl⟩
    · next hother =>
      refine ⟨fun h => (by cases h), fun h => ?_⟩
      rcases h with h | ⟨cause, h, heof⟩
      · cases h
      · obtain rfl := Except.error.inj h
        exact absurd heof hother

theorem outcome_wraps {answer : Answer} {fault : Fault} (h : outcome answer = some fault) :
    ∃ cause, answer = .error cause ∧ fault = .during "reading command" cause := by
  cases answer with
  | ok line => cases h
  | error cause =>
    rw [outcome] at h
    split at h
    · cases h
    · exact ⟨cause, rfl, (Option.some.inj h).symm⟩

theorem ends_stopping (answers : List Answer) : ends (stopping answers) = true := by
  rw [stopping]
  cases hfind : answers.find? ends with
  | none => rfl
  | some answer => exact List.find?_some hfind

section
variable {answer : Answer} (rest : List Answer)

theorem heard_of_ends (h : ends answer = true) : heard (answer :: rest) = [] := by
  rw [heard, List.takeWhile_cons_of_neg (by rw [h]; decide)]

theorem heard_of_goesOn (h : ends answer = false) : heard (answer :: rest) = answer :: heard rest := by
  rw [heard, List.takeWhile_cons_of_pos (by rw [h]; rfl)]
  rfl

theorem stopping_of_ends (h : ends answer = true) : stopping (answer :: rest) = answer := by
  rw [stopping, List.find?_cons_of_pos h]
  rfl

theorem stopping_of_goesOn (h : ends answer = false) : stopping (answer :: rest) = stopping rest := by
  rw [stopping, List.find?_cons_of_neg (by rw [h]; decide)]
  rfl

theorem unheard_of_ends (h : ends answer = true) : unheard (answer :: rest) = rest := by
  rw [unheard, List.dropWhile_cons_of_neg (by rw [h]; decide)]
  rfl

theorem unheard_of_goesOn (h : ends answer = false) : unheard (answer :: rest) = unheard rest := by
  rw [unheard, List.dropWhile_cons_of_pos (by rw [h]; rfl)]
  rfl

end

/-! ### Events -/

namespace Event

def answer? : Event → Option Answer
  | .asked answer => some answer
  | _ => none

def report? : Event → Option Report
  | .turned report => some report
  | _ => none

def text? : Event → Option String
  | .message text => some text
  | _ => none

section
variable (records : List Log.Record)

theorem filterMap_records_answer? : (records.map Event.record).filterMap answer? = [] :=
  List.filterMap_eq_nil_iff.mpr (List.forall_mem_map.mpr fun _ _ => rfl)

theorem filterMap_records_report? : (records.map Event.record).filterMap report? = [] :=
  List.filterMap_eq_nil_iff.mpr (List.forall_mem_map.mpr fun _ _ => rfl)

theorem filterMap_records_text? : (records.map Event.record).filterMap text? = [] :=
  List.filterMap_eq_nil_iff.mpr (List.forall_mem_map.mpr fun _ _ => rfl)

theorem filterMap_messages (texts : List String) : (texts.map Event.message).filterMap answer? = [] ∧
    (texts.map Event.message).filterMap report? = [] ∧ (texts.map Event.message).filterMap text? = texts := by
  refine ⟨List.filterMap_eq_nil_iff.mpr (List.forall_mem_map.mpr fun _ _ => rfl),
    List.filterMap_eq_nil_iff.mpr (List.forall_mem_map.mpr fun _ _ => rfl), ?_⟩
  rw [List.filterMap_map]
  exact List.filterMap_some

end

end Event

/-! ### What is told

These are the texts themselves, with the codes of their colours where colours are on. -/

/-- The greeting, in grey; an empty one is not told. -/
def greetingTexts (colours : Bool) (greeting : String) : List String :=
  if greeting = "" then []
  else if colours then ["\x1b[90m" ++ greeting ++ "\x1b[0m" ++ "\n"] else [greeting ++ "\n"]

/-- The line that tells a fault, in bold red. -/
def errorText (colours : Bool) (fault : Fault) : String :=
  if colours then "\x1b[31;1m" ++ ("Error: " ++ fault.message ++ "\n") ++ "\x1b[0m"
  else "Error: " ++ fault.message ++ "\n"

/-- The notice after an aborted prompt, in yellow and on a line of its own. -/
def noticeTexts (colours : Bool) : List String :=
  if colours then ["\n", "\x1b[33mSubmit an empty line to leave the session.\x1b[0m\n"]
  else ["\n", "Submit an empty line to leave the session.\n"]

/-- What is reported of a turn: its result and its fault, and the session and its output after it. -/
def account (t : Turn) : Report where
  result := t.result
  fault := t.fault
  snapshot := t.session.snapshot
  delivered := (t.session.sink.map (·.delivered.size)).getD 0

namespace Loop
variable {l : Loop}

/-- The session that turns leave, of which the first is one of `s`. -/
def leave (s : Session) (turns : List Turn) : Session := turns.foldl (fun _ t => t.session) s

/-- What is told of a turn: its records, its fault if it has one, and its report. -/
def turnTold (l : Loop) (t : Turn) : List Event :=
  t.records.map .record ++ ((t.fault.map (errorText l.colours)).toList.map .message ++ [.turned (account t)])

/-- What is told while answers that do not end the loop are heard, and the lines among them are run in these turns. -/
def transcript (l : Loop) : List Answer → List Turn → List Event
  | .ok line :: answers, t :: turns => .asked (.ok line) :: (l.turnTold t ++ l.transcript answers turns)
  | .error fault :: answers, turns =>
    .asked (.error fault) :: ((noticeTexts l.colours).map .message ++ l.transcript answers turns)
  | _, _ => []

/-- What is told at the answer that ends the loop. -/
def parting (l : Loop) (s : Session) : Answer → List Event
  | .ok _ => l.farewell "empty command, ending session" s
  | .error fault => if fault.isA .endOfInput then l.farewell "line source exhausted" s else []

theorem greet_eq (l : Loop) : l.greet = (greetingTexts l.colours l.greeting).map .message := by
  by_cases hnone : l.greeting = ""
  · rw [greet, greetingTexts, if_pos hnone, if_pos hnone]
    rfl
  · rw [greet, greetingTexts, if_neg hnone, if_neg hnone]
    cases l.colours <;> rfl

theorem warning_eq (l : Loop) : l.warning = (noticeTexts l.colours).map .message := by
  rw [warning, noticeTexts]
  cases l.colours <;> rfl

theorem complaint_eq (l : Loop) (fault : Fault) : l.complaint fault = .message (errorText l.colours fault) := by
  rw [complaint, errorText]
  cases l.colours <;> rfl

theorem turnEvents_eq (l : Loop) (t : Turn) : l.turnEvents t = l.turnTold t := by
  rw [turnEvents, turnTold, List.append_assoc, funext l.complaint_eq]
  cases t.fault <;> rfl

theorem filterMap_turnTold (t : Turn) : (l.turnTold t).filterMap Event.answer? = [] ∧
    (l.turnTold t).filterMap Event.report? = [account t] ∧
    (l.turnTold t).filterMap Event.text? = (t.fault.map (errorText l.colours)).toList := by
  obtain ⟨hanswers, hreports, htexts⟩ := Event.filterMap_messages (t.fault.map (errorText l.colours)).toList
  simp only [turnTold, List.filterMap_append, Event.filterMap_records_answer?, Event.filterMap_records_report?,
    Event.filterMap_records_text?, hanswers, hreports, htexts, List.nil_append]
  exact ⟨rfl, rfl, List.append_nil _⟩

/-- The loop plays lines as turns, the first one of `s` and each other one of the session that the one before it leaves.
Every one comes to its end, and none raises the signal of the loop, which is `signal` at first. -/
inductive Plays (l : Loop) : Signal → Session → List (List UInt8) → List Turn → Prop
  | nil (signal : Signal) (s : Session) : l.Plays signal s [] []
  | cons {signal : Signal} {s : Session} {line : List UInt8} {lines : List (List UInt8)} {t : Turn}
      {turns : List Turn} : s.Turns (l.turnSignal (Word.wrap (s.turns + 1)) signal) line.toArray t →
      (l.signalAfter t signal).isRaised = false → l.Plays (l.signalAfter t signal) t.session lines turns →
      l.Plays signal s (line :: lines) (t :: turns)

theorem Plays.length_eq {signal : Signal} {s : Session} {lines : List (List UInt8)} {turns : List Turn}
    (h : l.Plays signal s lines turns) : lines.length = turns.length := by
  induction h with
  | nil => rfl
  | cons _ _ _ ih => rw [List.length_cons, List.length_cons, ih]

/-- The count of turns grows by the number of lines. -/
theorem Plays.turns_eq {signal : Signal} {s : Session} {lines : List (List UInt8)} {turns : List Turn}
    (h : l.Plays signal s lines turns) (hword : Word.wrap s.turns = s.turns) :
    (leave s turns).turns = Word.wrap (s.turns + turns.length) := by
  induction h with
  | nil _ s => exact hword.symm.trans (congrArg Word.wrap (Int.add_zero s.turns).symm)
  | @cons _ s line lines t turns hturns _ _ ih =>
    obtain ⟨fuel, hturn⟩ := hturns
    have hcount := Session.turns_of_turn hturn
    have hlater := ih (by rw [hcount]; exact Int.bmod_bmod)
    rw [leave, List.foldl_cons, ← leave, hlater, hcount, Word.wrap, Word.wrap, Word.wrap, Int.bmod_add_bmod,
      List.length_cons]
    congr 1
    omega

/-- The signal of the loop after some turns. -/
def signalPast (l : Loop) (signal : Signal) (turns : List Turn) : Signal :=
  turns.foldl (fun signal t => l.signalAfter t signal) signal

theorem Plays.quiet {signal : Signal} {s : Session} {lines : List (List UInt8)} {turns : List Turn}
    (h : l.Plays signal s lines turns) (hquiet : signal.isRaised = false) :
    (l.signalPast signal turns).isRaised = false := by
  induction h with
  | nil => exact hquiet
  | cons _ hafter _ ih => exact ih hafter

/-- A transcript has every answer and every turn once, in order, one error for each turn with a fault and one
notice for each aborted prompt. -/
theorem transcript_spec (l : Loop) {answers : List Answer} {turns : List Turn}
    (hlen : (answers.filterMap Except.toOption).length = turns.length) :
    (l.transcript answers turns).filterMap Event.answer? = answers ∧
      (l.transcript answers turns).filterMap Event.report? = turns.map account ∧
      ((l.transcript answers turns).filterMap Event.text?).Perm
        ((turns.flatMap fun t => (t.fault.map (errorText l.colours)).toList) ++
          (answers.filter (!·.toOption.isSome)).flatMap fun _ => noticeTexts l.colours) := by
  induction answers generalizing turns with
  | nil =>
    obtain rfl := List.length_eq_zero_iff.mp hlen.symm
    exact ⟨rfl, rfl, .nil⟩
  | cons answer answers ih =>
    cases answer with
    | ok line =>
      cases turns with
      | nil => cases hlen
      | cons t turns =>
        obtain ⟨hanswers, hreports, htexts⟩ := ih (Nat.succ.inj hlen)
        obtain ⟨hnoAnswer, hreport, htext⟩ := l.filterMap_turnTold t
        refine ⟨?_, ?_, ?_⟩
        · simp only [transcript, List.filterMap_cons, Event.answer?, List.filterMap_append, hnoAnswer, hanswers,
            List.nil_append]
        · simp only [transcript, List.filterMap_cons, Event.report?, List.filterMap_append, hreport, hreports,
            List.singleton_append, List.map_cons]
        · simp only [transcript, List.filterMap_cons, Event.text?, List.filterMap_append, htext, List.flatMap_cons,
            List.append_assoc]
          exact htexts.append_left _
    | error fault =>
      obtain ⟨hanswers, hreports, htexts⟩ := ih hlen
      obtain ⟨hnoAnswer, hnoReport, htext⟩ := Event.filterMap_messages (noticeTexts l.colours)
      refine ⟨?_, ?_, ?_⟩
      · simp only [transcript, List.filterMap_cons, Event.answer?, List.filterMap_append, hnoAnswer, hanswers,
          List.nil_append]
      · simp only [transcript, List.filterMap_cons, Event.report?, List.filterMap_append, hnoReport, hreports,
          List.nil_append]
      · -- The notice stands before the errors of later turns.
        simp only [transcript, List.filterMap_cons, Event.text?, List.filterMap_append, htext]
        exact (htexts.append_left _).trans (List.perm_append_comm_assoc ..)

/-! ### Rounds -/

variable {p : Progress} {answers : List Answer} {fuel : Nat}

/-- The loop after an aborted prompt. -/
def warned (l : Loop) (p : Progress) (fault : Fault) (rest : List Answer) : Progress :=
  tell { p with source := .script rest } (.asked (.error fault) :: (noticeTexts l.colours).map .message)

/-- The loop after a line and its turn. -/
def obeyed (l : Loop) (p : Progress) (line : List UInt8) (rest : List Answer) (t : Turn) : Progress :=
  tell { p with session := t.session, source := .script rest, signal := l.signalAfter t p.signal }
    (.asked (.ok line) :: l.turnTold t)

theorem tell_tell (p : Progress) (first second : List Event) :
    tell (tell p first) second = tell p (first ++ second) := by
  simp only [tell, List.reverse_append, List.append_assoc]

/-- A script answers without a read. -/
theorem consult_script (l : Loop) (hsource : p.source = .script answers) :
    l.consult p = (answers.headD exhausted,
      tell { p with source := .script answers.tail } [.asked (answers.headD exhausted)]) := by
  have hquiet : p.session.input.hasCancelledSince p.session.input.calls = false := by
    unfold Input.hasCancelledSince Input.calls
    cases p.session.input.source? with
    | none => rfl
    | some source =>
      simp only [Option.map_some, Option.getD_some, Source.hasCancelledSince, Bool.and_eq_false_iff,
        decide_eq_false_iff_not]
      omega
  cases answers with
  | nil =>
    simp only [consult, hsource, Prompter.ask, hquiet, Bool.and_false, Signal.cancelIf_false]
    rfl
  | cons answer rest =>
    simp only [consult, hsource, Prompter.ask, hquiet, Bool.and_false, Signal.cancelIf_false]
    rfl

section
variable (l) (hquiet : p.signal.isRaised = false)
include hquiet

/-- A round whose answer ends the loop. -/
theorem round_ends (hsource : p.source = .script answers) (hends : ends (answers.headD exhausted) = true) :
    l.round fuel p = .ended
      (tell { p with source := .script answers.tail }
        (.asked (answers.headD exhausted) :: l.parting p.session (answers.headD exhausted)))
      (outcome (answers.headD exhausted)) := by
  simp only [round, hquiet, Bool.false_eq_true, if_false, consult_script l hsource]
  generalize answers.headD exhausted = answer at hends ⊢
  cases answer with
  | ok line =>
    obtain rfl : line = [] := List.isEmpty_iff.mp hends
    simp only [tell_tell]
    rfl
  | error fault =>
    cases heof : fault.isA .endOfInput with
    | true =>
      simp only [if_true, tell_tell, outcome, parting, heof]
      rfl
    | false =>
      have habort : fault.isA .aborted = false := by
        rw [ends, heof, Bool.false_or, Bool.not_eq_true'] at hends
        exact hends
      simp only [habort, Bool.false_eq_true, if_false, outcome, parting, heof]

/-- A round whose prompt is aborted. -/
theorem round_warns {fault : Fault} {rest : List Answer} (hsource : p.source = .script (.error fault :: rest))
    (hgoes : ends (.error fault) = false) : l.round fuel p = .again (l.warned p fault rest) := by
  obtain ⟨heof, habort⟩ : fault.isA .endOfInput = false ∧ fault.isA .aborted = true := by
    rw [ends, Bool.or_eq_false_iff, Bool.not_eq_false'] at hgoes
    exact hgoes
  simp only [round, hquiet, Bool.false_eq_true, if_false, consult_script l hsource, List.headD_cons,
    List.tail_cons, heof, habort, if_true, tell_tell, warned, warning_eq]
  rfl

/-- A round whose answer is a line to run. -/
theorem round_obeys {line : List UInt8} {rest : List Answer} (hsource : p.source = .script (.ok line :: rest))
    (hgoes : ends (.ok line) = false) :
    l.round fuel p = (p.session.turn fuel (l.turnSignal (Word.wrap (p.session.turns + 1)) p.signal) line.toArray).elim
      .stuck fun t => .again (l.obeyed p line rest t) := by
  cases line with
  | nil => cases hgoes
  | cons b line =>
    simp only [round, hquiet, Bool.false_eq_true, if_false, consult_script l hsource, List.headD_cons,
      List.tail_cons, obey, tell, turnEvents_eq]
    cases p.session.turn fuel (l.turnSignal (Word.wrap (p.session.turns + 1)) p.signal) (b :: line).toArray with
    | none => rfl
    | some t =>
      simp only [Option.elim_some, obeyed, tell, List.reverse_cons, List.append_assoc]
      rfl

end

/-! ### The loop -/

/-- How a loop ends that has come to `p`, hears these answers from there and runs the lines among them in these
turns. -/
def conclusion (l : Loop) (p : Progress) (answers : List Answer) (turns : List Turn) : Ended where
  session := leave p.session turns
  source := .script (unheard answers)
  signal := l.signalPast p.signal turns
  events := p.events.reverse ++ (l.transcript (heard answers) turns ++
    .asked (stopping answers) :: l.parting (leave p.session turns) (stopping answers))
  fault := outcome (stopping answers)

theorem conclusion_warned (l : Loop) (p : Progress) {fault : Fault} (rest : List Answer) (turns : List Turn)
    (hgoes : ends (.error fault) = false) :
    l.conclusion (l.warned p fault rest) rest turns = l.conclusion p (.error fault :: rest) turns := by
  simp only [conclusion, warned, tell, List.reverse_append, List.reverse_reverse, List.append_assoc,
    heard_of_goesOn rest hgoes, stopping_of_goesOn rest hgoes, unheard_of_goesOn rest hgoes, transcript,
    List.cons_append]

theorem conclusion_obeyed (l : Loop) (p : Progress) {line : List UInt8} (rest : List Answer) (t : Turn)
    (turns : List Turn) (hgoes : ends (.ok line) = false) :
    l.conclusion (l.obeyed p line rest t) rest turns = l.conclusion p (.ok line :: rest) (t :: turns) := by
  simp only [conclusion, obeyed, tell, List.reverse_append, List.reverse_reverse, List.append_assoc,
    heard_of_goesOn rest hgoes, stopping_of_goesOn rest hgoes, unheard_of_goesOn rest hgoes, transcript,
    List.cons_append, leave, signalPast, List.foldl_cons]

theorem spoken_of_ends (hends : ends (answers.headD exhausted) = true) : spoken answers = [] := by
  cases answers with
  | nil => rfl
  | cons answer rest =>
    rw [List.headD_cons] at hends
    rw [spoken, heard_of_ends rest hends]
    rfl

theorem repeatRounds_ends (l : Loop) (hquiet : p.signal.isRaised = false) (hsource : p.source = .script answers)
    (hends : ends (answers.headD exhausted) = true) (fuel rounds : Nat) :
    l.repeatRounds fuel (rounds + 1) p = some (l.conclusion p answers []) := by
  rw [repeatRounds, round_ends l hquiet hsource hends]
  simp only [tell, List.reverse_append, List.reverse_reverse, conclusion]
  cases answers with
  | nil => rfl
  | cons answer rest =>
    rw [List.headD_cons] at hends
    simp only [heard_of_ends rest hends, stopping_of_ends rest hends, unheard_of_ends rest hends]
    rfl

/-- A loop whose signal is raised ends with it. -/
theorem signal_of_raised {rounds : Nat} {e : Ended} (hraised : p.signal.isRaised = true)
    (h : l.repeatRounds fuel rounds p = some e) : e.signal = p.signal := by
  cases rounds with
  | zero => cases h
  | succ rounds =>
    rw [repeatRounds, round, if_pos hraised] at h
    obtain rfl := Option.some.inj h
    rfl

/-- If the lines can be played, the loop plays them: with enough fuel for the longest turn, and a round for each answer
and one more for the end. -/
theorem repeatRounds_of_plays {turns : List Turn} (hplays : l.Plays p.signal p.session (spoken answers) turns)
    (hquiet : p.signal.isRaised = false) (hsource : p.source = .script answers) :
    ∃ least, ∀ fuel, least ≤ fuel → ∀ rounds, answers.length < rounds →
      l.repeatRounds fuel rounds p = some (l.conclusion p answers turns) := by
  induction answers generalizing p turns with
  | nil =>
    cases hplays
    refine ⟨0, fun fuel _ rounds hrounds => ?_⟩
    obtain ⟨rounds, rfl⟩ := Nat.exists_eq_add_one.mpr hrounds
    exact repeatRounds_ends l hquiet hsource rfl fuel rounds
  | cons answer rest ih =>
    have hmore {rounds : Nat} (hrounds : (answer :: rest).length < rounds) :
        ∃ fewer, rounds = fewer + 1 ∧ rest.length < fewer := ⟨rounds - 1, by grind, by grind⟩
    cases hends : ends answer with
    | true =>
      have hnone : spoken (answer :: rest) = [] := spoken_of_ends hends
      rw [hnone] at hplays
      cases hplays
      refine ⟨0, fun fuel _ rounds hrounds => ?_⟩
      obtain ⟨fewer, rfl, -⟩ := hmore hrounds
      exact repeatRounds_ends l hquiet hsource hends fuel fewer
    | false =>
      rw [spoken, heard_of_goesOn rest hends] at hplays
      cases answer with
      | error fault =>
        obtain ⟨least, hleast⟩ := ih (p := l.warned p fault rest) hplays hquiet rfl
        refine ⟨least, fun fuel hfuel rounds hrounds => ?_⟩
        obtain ⟨fewer, rfl, hfewer⟩ := hmore hrounds
        rw [repeatRounds, round_warns l hquiet hsource hends, ← conclusion_warned l p rest turns hends]
        exact hleast fuel hfuel fewer hfewer
      | ok line =>
        cases hplays with
        | @cons _ _ _ _ t turns hturns hafter hlater =>
          obtain ⟨enough, hturn⟩ := hturns
          obtain ⟨least, hleast⟩ := ih (p := l.obeyed p line rest t) hlater hafter rfl
          refine ⟨max enough least, fun fuel hfuel rounds hrounds => ?_⟩
          obtain ⟨fewer, rfl, hfewer⟩ := hmore hrounds
          rw [repeatRounds, round_obeys l hquiet hsource hends, Session.turn_mono hturn (by omega),
            ← conclusion_obeyed l p rest t turns hends]
          exact hleast fuel (by omega) fewer hfewer

/-- A loop that comes to its end with its signal not raised has played the lines. -/
theorem plays_of_repeatRounds {rounds : Nat} {e : Ended} (h : l.repeatRounds fuel rounds p = some e)
    (hlast : e.signal.isRaised = false) (hquiet : p.signal.isRaised = false) (hsource : p.source = .script answers) :
    ∃ turns, l.Plays p.signal p.session (spoken answers) turns ∧ e = l.conclusion p answers turns := by
  induction rounds generalizing p answers with
  | zero => cases h
  | succ rounds ih =>
    cases hends : ends (answers.headD exhausted) with
    | true =>
      rw [repeatRounds_ends l hquiet hsource hends] at h
      rw [spoken_of_ends hends]
      exact ⟨[], .nil _ _, (Option.some.inj h).symm⟩
    | false =>
      cases answers with
      | nil => cases hends
      | cons answer rest =>
        rw [List.headD_cons] at hends
        rw [spoken, heard_of_goesOn rest hends]
        rw [repeatRounds] at h
        cases answer with
        | error fault =>
          rw [round_warns l hquiet hsource hends] at h
          obtain ⟨turns, hplays, he⟩ := ih (p := l.warned p fault rest) h hquiet rfl
          exact ⟨turns, hplays, he.trans (conclusion_warned l p rest turns hends)⟩
        | ok line =>
          rw [round_obeys l hquiet hsource hends] at h
          cases hturn : p.session.turn fuel (l.turnSignal (Word.wrap (p.session.turns + 1)) p.signal) line.toArray with
          | none =>
            rw [hturn] at h
            cases h
          | some t =>
            rw [hturn] at h
            have hafter : (l.signalAfter t p.signal).isRaised = false := by
              apply Bool.eq_false_iff.mpr
              intro hraised
              rw [signal_of_raised (p := l.obeyed p line rest t) hraised h] at hlast
              cases hlast.symm.trans hraised
            obtain ⟨turns, hplays, he⟩ := ih (p := l.obeyed p line rest t) h hafter rfl
            exact ⟨t :: turns, .cons ⟨fuel, hturn⟩ hafter hplays, he.trans (conclusion_obeyed l p rest t turns hends)⟩

/-! ### What has been told -/

theorem parting_eq (l : Loop) (s : Session) (answer : Answer) :
    ∃ records : List Log.Record, l.parting s answer = records.map .record := by
  cases answer with
  | ok line => exact ⟨_, rfl⟩
  | error fault =>
    rw [parting]
    split
    · exact ⟨_, rfl⟩
    · exact ⟨[], rfl⟩

end Loop

/-- What a loop has done that began with `signal` and `s`, was answered by a script and has run the lines in these
turns. -/
structure Ended.Recounts (e : Ended) (l : Loop) (signal : Signal) (s : Session) (answers : List Answer)
    (turns : List Turn) : Prop where
  signal : e.signal = l.signalPast signal turns
  session : e.session = Loop.leave s turns
  count : Word.fits s.turns = true → e.session.turns = Word.wrap (s.turns + (spoken answers).length)
  /-- Each turn is reported once, with its result and its fault. -/
  reports : e.events.filterMap Event.report? = turns.map account
  /-- No answer is asked for after the one that ends the loop. -/
  asked : e.events.filterMap Event.answer? = heard answers ++ [stopping answers]
  source : e.source = .script (unheard answers)
  /-- There is one error for each turn with a fault, and one notice for each aborted prompt. -/
  messages : (e.events.filterMap Event.text?).Perm
    (greetingTexts l.colours l.greeting ++ ((turns.flatMap fun t => (t.fault.map (errorText l.colours)).toList) ++
      (aborted answers).flatMap fun _ => noticeTexts l.colours))
  /-- All that is told, in order. -/
  told : e.events = (greetingTexts l.colours l.greeting).map .message ++ (l.transcript (heard answers) turns ++
    .asked (stopping answers) :: l.parting e.session (stopping answers))
  well : e.fault = none ↔
    stopping answers = .ok [] ∨ ∃ fault, stopping answers = .error fault ∧ fault.isA .endOfInput = true
  wraps : ∀ fault, e.fault = some fault →
    ∃ cause, stopping answers = .error cause ∧ fault = .during "reading command" cause

namespace Loop
variable {l : Loop}

theorem recounts_conclusion {signal : Signal} {s : Session} {answers : List Answer} {turns : List Turn}
    (hplays : l.Plays signal s (spoken answers) turns) :
    (l.conclusion { session := s, source := .script answers, signal, events := l.greet } answers
      turns).Recounts l signal s answers turns := by
  obtain ⟨hanswers, hreports, hmessages⟩ := l.transcript_spec hplays.length_eq
  obtain ⟨records, hparting⟩ := l.parting_eq (leave s turns) (stopping answers)
  have hreverse : l.greet.reverse = l.greet := by
    rw [greet]
    split <;> rfl
  obtain ⟨hnoAnswer, hnoReport, hgreeting⟩ := Event.filterMap_messages (greetingTexts l.colours l.greeting)
  have htold : (l.conclusion { session := s, source := .script answers, signal, events := l.greet } answers
      turns).events = (greetingTexts l.colours l.greeting).map .message ++ (l.transcript (heard answers) turns ++
        .asked (stopping answers) :: records.map .record) := by
    rw [conclusion, hparting, hreverse, greet_eq]
  refine ⟨rfl, rfl, fun hfits => ?_, ?_, ?_, rfl, ?_, ?_, outcome_eq_none_iff (ends_stopping answers),
    fun fault hfault => outcome_wraps hfault⟩
  · rw [hplays.length_eq]
    exact hplays.turns_eq (Word.wrap_of_fits hfits)
  · rw [htold, List.filterMap_append, List.filterMap_append, hnoReport, hreports, List.filterMap_cons_none rfl,
      Event.filterMap_records_report?, List.append_nil, List.nil_append]
  · rw [htold, List.filterMap_append, List.filterMap_append, hnoAnswer, hanswers, List.filterMap_cons,
      Event.filterMap_records_answer?, List.nil_append]
    rfl
  · rw [htold, List.filterMap_append, List.filterMap_append, hgreeting, List.filterMap_cons_none rfl,
      Event.filterMap_records_text?, List.append_nil]
    exact hmessages.append_left _
  · rw [htold, ← hparting]
    rfl

/-- **The loop is a fold of turns, and no turn ends it.** It is given a script and a signal that does not get raised. If
each of the lines before the stopping answer makes a turn that ends, when they are run one after the other, then the
loop ends too, once it has run just these turns, whatever faults they meet. There is no other way for it to end. -/
theorem run_is_fold_of_turns (l : Loop) (signal : Signal) (hsignal : signal.isRaised = false) (s : Session)
    (answers : List Answer) :
    (∀ turns, l.Plays signal s (spoken answers) turns →
      ∃ least, ∀ fuel, least ≤ fuel → ∃ e, l.run fuel s (.script answers) signal = some e ∧
        e.signal.isRaised = false ∧ e.Recounts l signal s answers turns) ∧
      ∀ fuel e, l.run fuel s (.script answers) signal = some e → e.signal.isRaised = false →
        ∃ turns, l.Plays signal s (spoken answers) turns ∧ e.Recounts l signal s answers turns := by
  refine ⟨fun turns hplays => ?_, fun fuel e hrun hlast => ?_⟩
  · obtain ⟨least, hleast⟩ := repeatRounds_of_plays
      (p := { session := s, source := .script answers, signal, events := l.greet }) hplays hsignal rfl
    refine ⟨least, fun fuel hfuel => ⟨_, hleast fuel hfuel _ ?_, hplays.quiet hsignal, recounts_conclusion hplays⟩⟩
    rw [Prompter.bound]
    omega
  · obtain ⟨turns, hplays, rfl⟩ := plays_of_repeatRounds hrun hlast hsignal rfl
    exact ⟨turns, hplays, recounts_conclusion hplays⟩

/-- The lines `+.`, `]` and `.` with an aborted prompt among them, a fault of the source and a line behind it. The
second turn is rejected, and the third one goes on with the tape of the first. -/
theorem run_is_fold_of_turns_faulty :
    ∃ (l : Loop) (s : Session) (answers : List Answer) (turns : List Turn) (e : Ended),
      answers = [.ok [0x2b, 0x2e], .error (.bare .aborted), .ok [0x5d], .ok [0x2e], .error (.told "torn"),
        .ok [0x2b]] ∧
      l.run 5 s (.script answers) .clear = some e ∧ l.Plays .clear s [[0x2b, 0x2e], [0x5d], [0x2e]] turns ∧
      e.Recounts l .clear s answers turns ∧ e.fault = some (.during "reading command" (.told "torn")) ∧
      e.session.turns = 3 ∧ e.session.sink.map (·.delivered.toList) = some [1, 1] ∧
      (e.events.filterMap Event.report?).map (fun r => (r.result, r.fault)) =
        [({ steps := 2, written := 1 }, none),
          ({ stop := .failed }, some (.caused .unbalancedBrackets (.unmatchedClose 0))),
          ({ steps := 1, written := 1 }, none)] ∧
      e.events.filterMap Event.text? =
        ["Ready.\n", "\n", "Submit an empty line to leave the session.\n",
          "Error: unbalanced brackets: unmatched ']' at offset 0\n"] := by
  let l : Loop := { greeting := "Ready." }
  let s : Session := { options := { tapeSize := 2 }, store := ⟨8, Tape.blank 2⟩, sink := some {} }
  let answers : List Answer :=
    [.ok [0x2b, 0x2e], .error (.bare .aborted), .ok [0x5d], .ok [0x2e], .error (.told "torn"), .ok [0x2b]]
  have hrun : (l.run 5 s (.script answers) .clear).map
        (fun e => (e.signal, e.fault, e.session.turns, e.session.sink.map (·.delivered.toList)))
      = some (.clear, some (.during "reading command" (.told "torn")), 3, some [1, 1]) := by decide +kernel
  have hevents : (l.run 5 s (.script answers) .clear).map
        (fun e => ((e.events.filterMap Event.report?).map (fun r => (r.result, r.fault)),
          e.events.filterMap Event.text?))
      = some
        ([({ steps := 2, written := 1 }, none),
          ({ stop := .failed }, some (.caused .unbalancedBrackets (.unmatchedClose 0))),
          ({ steps := 1, written := 1 }, none)],
        ["Ready.\n", "\n", "Submit an empty line to leave the session.\n",
          "Error: unbalanced brackets: unmatched ']' at offset 0\n"]) := by decide +kernel
  obtain ⟨e, he, hdata⟩ := Option.map_eq_some_iff.mp hrun
  obtain ⟨hquiet, hdata⟩ := Prod.mk.inj hdata
  obtain ⟨hfault, hdata⟩ := Prod.mk.inj hdata
  obtain ⟨hturns, hdelivered⟩ := Prod.mk.inj hdata
  rw [he] at hevents
  obtain ⟨hreports, htexts⟩ := Prod.mk.inj (Option.some.inj hevents)
  obtain ⟨turns, hplays, hrecounts⟩ := (run_is_fold_of_turns l .clear rfl s answers).2 5 e he (by rw [hquiet]; rfl)
  exact ⟨l, s, answers, turns, e, rfl, he, hplays, hrecounts, hfault, hturns, hdelivered, hreports, htexts⟩

end Loop
end TapeMachine.Prompt
