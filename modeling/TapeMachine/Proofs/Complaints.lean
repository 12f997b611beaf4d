import TapeMachine.Proofs.Hexadecimals
import TapeMachine.Proofs.Inspection
import TapeMachine.Proofs.PipedPrompt

/-! What a command tells that fails.

All that a command tells is made of whole lines: the lines of its records, the states it dumps, and the messages of the
prompt loop. So a complaint always starts a line. Where a command ends with a fault it complains last, with one
exception: a program that ran well is inspected, and its tape cannot be saved or its log cannot be closed. Then only
records have been told, and a record is a single line that starts with its level (`Log.Record.line_eq`), whatever its
texts hold; none of them can be taken for a complaint. -/
namespace TapeMachine

/-! ### Records are single lines -/

namespace Text

theorem Hex.newline_not_mem_digits (n : Nat) : '\n' ∉ Hex.digits n :=
  fun h => absurd (Hex.mem_alphabet_of_mem_digits h) (by decide)

theorem Quoted.newline_not_mem_encodeChar (c : Char) : '\n' ∉ encodeChar c := by
  unfold encodeChar
  split
  · decide
  split
  · decide
  split
  · next hgraphic =>
    intro hmem
    obtain rfl := List.mem_singleton.mp hmem
    cases hgraphic
  split
  · next l hletter =>
    unfold letter? at hletter
    split at hletter <;> cases hletter <;> decide
  · simp only [numbered, padLeft]
    split
    · simp [Hex.newline_not_mem_digits]
    split
    · simp [Hex.newline_not_mem_digits]
    · simp [Hex.newline_not_mem_digits]

theorem Quoted.newline_not_mem_render (s : String) : '\n' ∉ (render s).toList := by
  rw [render, String.toList_ofList, encode]
  simp [Quoted.newline_not_mem_encodeChar]

end Text

namespace Log

theorem newline_not_mem_word (s : String) : '\n' ∉ (word s).toList := by
  unfold word
  split
  · next hbare =>
    intro hmem
    have hall := (Bool.and_eq_true_iff.mp hbare).2
    exact absurd (List.all_eq_true.mp hall _ hmem) (by decide)
  · exact Text.Quoted.newline_not_mem_render s

theorem newline_not_mem_repr (i : Int) : '\n' ∉ i.repr.toList := by
  have hdigits (n : Nat) : '\n' ∉ Nat.toDigits 10 n := by
    intro hmem
    cases Nat.isDigit_of_mem_toDigits (by decide) (by decide) hmem
  rw [Int.repr_eq_if]
  split
  · simp [hdigits]
  · simp [hdigits]

theorem Level.newline_not_mem_name (l : Level) : '\n' ∉ (name l).toList := by
  have hoffset {base : String} (hbase : '\n' ∉ base.toList) (distance : Int) :
      '\n' ∉ (offset base distance).toList := by
    unfold offset
    split
    · exact hbase
    split
    · simp [hbase, newline_not_mem_repr]
    · simp [hbase, newline_not_mem_repr]
  unfold name
  split
  · exact hoffset (by decide) _
  split
  · exact hoffset (by decide) _
  split
  · exact hoffset (by decide) _
  · exact hoffset (by decide) _

/-- A record is written as one line, and the line starts with the level. -/
theorem Record.line_eq (r : Record) : ∃ body, r.line.toList = 'l' :: body ++ ['\n'] ∧ '\n' ∉ body := by
  refine ⟨"evel=".toList ++ (Level.name r.level).toList ++ " msg=".toList ++ (word r.message).toList ++
    (String.join (r.written.map fun pair => " " ++ word pair.1 ++ "=" ++ word pair.2.plain)).toList, ?_, ?_⟩
  · simp [Record.line, String.toList_append]
  · simp [Level.newline_not_mem_name, newline_not_mem_word, String.toList_join]

end Log

/-! ### Lines -/

namespace Text

/-- A text of whole lines. -/
def IsLines (s : String) : Prop := s = "" ∨ ∃ t, s = t ++ "\n"

theorem IsLines.append {s t : String} (hs : IsLines s) (ht : IsLines t) : IsLines (s ++ t) := by
  rcases ht with rfl | ⟨u, rfl⟩
  · rwa [String.append_empty]
  · exact .inr ⟨s ++ u, (String.append_assoc ..).symm⟩

theorem IsLines.join {pieces : List String} (h : ∀ piece ∈ pieces, IsLines piece) : IsLines (String.join pieces) := by
  induction pieces with
  | nil => exact .inl rfl
  | cons piece rest ih =>
    rw [String.join_cons]
    exact (h piece (List.mem_cons_self ..)).append (ih fun p hp => h p (List.mem_cons_of_mem _ hp))

/-- Where all lines start with the same character, so does what follows after whole lines. -/
theorem head_after_lines {first c : Char} {lines : List (List Char)}
    (hlines : ∀ line ∈ lines, ∃ body, line = first :: body ++ ['\n'] ∧ '\n' ∉ body) (hfirst : first ≠ '\n')
    {before after : List Char} (hbefore : before = [] ∨ ∃ t, before = t ++ ['\n'])
    (h : lines.flatten = before ++ c :: after) : c = first := by
  induction lines generalizing before with
  | nil => simp at h
  | cons line rest ih =>
    obtain ⟨body, rfl, hbody⟩ := hlines _ (List.mem_cons_self ..)
    have hrest {before : List Char} := @ih (fun line hline => hlines line (List.mem_cons_of_mem _ hline)) before
    rcases hbefore with rfl | ⟨t, rfl⟩
    · exact (List.cons.inj h).1.symm
    · -- The first line is one of those before, as it has no line break inside.
      simp only [List.flatten_cons, List.append_assoc, List.singleton_append] at h
      rcases List.append_eq_append_iff.mp h with ⟨more, rfl, hmore⟩ | ⟨more, hmore, hafter⟩
      · cases more with
        | nil => exact hrest (.inl rfl) (List.cons.inj hmore).2
        | cons d more =>
          refine hrest (.inr ⟨more, rfl⟩) ?_
          rw [List.append_assoc]
          exact (List.cons.inj hmore).2
      · cases more with
        | nil => exact hrest (.inl rfl) (List.cons.inj hafter).2.symm
        | cons d more =>
          have hmem : '\n' ∈ first :: body := by
            rw [hmore, (List.cons.inj hafter).1]
            simp
          rcases List.mem_cons.mp hmem with heq | hmem
          · exact absurd heq.symm hfirst
          · exact absurd hmem hbody

theorem isLines_ofList (text : List Char) : IsLines (String.ofList (text ++ ['\n'])) :=
  .inr ⟨String.ofList text, String.ofList_append⟩

end Text

open Text (IsLines)

theorem Snapshot.isLines_render (s : Snapshot) : IsLines (String.ofList s.render) := by
  have hfield (name : String) (value : List Char) :
      fieldLine name value = name.toList ++ ':' :: ' ' :: value ++ ['\n'] := by simp [fieldLine, field]
  have hlines (cells : List (Int × Nat)) : IsLines (String.ofList (cells.flatMap cellLine)) := by
    induction cells with
    | nil => exact .inl rfl
    | cons cell rest ih =>
      rw [List.flatMap_cons, String.ofList_append]
      exact (Text.isLines_ofList _).append ih
  have hcells : IsLines (String.ofList (cellLines s.cells)) := by
    unfold cellLines
    split
    · exact .inl rfl
    · rw [String.ofList_append]
      exact IsLines.append (.inr ⟨"cells:", rfl⟩) (hlines s.cells)
  rw [render, String.ofList_append]
  refine IsLines.append ?_ hcells
  rw [hfield "turns", ← List.append_assoc]
  exact Text.isLines_ofList _

/-! ### The prompt loop -/

namespace Prompt

/-- An event that tells whole lines, if anything. -/
def Event.IsWhole : Event → Prop
  | .message text => IsLines text
  | _ => True

def Progress.IsWhole (p : Progress) : Prop := ∀ event ∈ p.events, event.IsWhole

def Round.IsWhole : Round → Prop
  | .again p => p.IsWhole
  | .ended p _ => p.IsWhole
  | .stuck => True

namespace Loop
variable {l : Loop} {p : Progress}

theorem isWhole_tell {events : List Event} (hp : p.IsWhole) (h : ∀ event ∈ events, event.IsWhole) :
    (tell p events).IsWhole := by
  intro event hevent
  rcases List.mem_append.mp hevent with hnew | hold
  · exact h event (List.mem_reverse.mp hnew)
  · exact hp event hold

theorem isWhole_record {records : List Log.Record} : ∀ event ∈ records.map Event.record, event.IsWhole := by
  intro event hevent
  obtain ⟨record, -, rfl⟩ := List.mem_map.mp hevent
  trivial

theorem isWhole_turnEvents (hplain : l.colours = false) (t : Turn) : ∀ event ∈ l.turnEvents t, event.IsWhole := by
  intro event hevent
  simp only [turnEvents, List.mem_append, List.mem_singleton, Option.mem_toList,
    Option.map_eq_some_iff] at hevent
  rcases hevent with (hrecord | ⟨fault, -, rfl⟩) | rfl
  · exact isWhole_record event hrecord
  · simp only [complaint, hplain, coloured]
    exact .inr ⟨_, rfl⟩
  · trivial

/-- One round tells whole lines, if messages are not coloured. -/
theorem isWhole_round (hplain : l.colours = false) (hp : p.IsWhole) (fuel : Nat) : (l.round fuel p).IsWhole := by
  have hconsult : (l.consult p).2.IsWhole := isWhole_tell hp (by simp [Event.IsWhole])
  unfold round
  split
  · exact hp
  · generalize l.consult p = asked at hconsult ⊢
    obtain ⟨answer, q⟩ := asked
    cases answer with
    | error fault =>
      dsimp only
      split
      · exact isWhole_tell hconsult isWhole_record
      split
      · refine isWhole_tell hconsult ?_
        simp only [warning, hplain, coloured]
        exact List.forall_mem_cons.mpr ⟨.inr ⟨"", rfl⟩, List.forall_mem_singleton.mpr (.inr ⟨_, rfl⟩)⟩
      · exact hconsult
    | ok line =>
      cases line with
      | nil => exact isWhole_tell hconsult isWhole_record
      | cons b rest =>
        simp only [obey]
        cases q.session.turn fuel (l.turnSignal (Word.wrap (q.session.turns + 1)) q.signal) (b :: rest).toArray with
        | none => trivial
        | some t => exact isWhole_tell hconsult (isWhole_turnEvents hplain t)

theorem isWhole_repeatRounds (hplain : l.colours = false) (hp : p.IsWhole) {fuel rounds : Nat} {e : Ended}
    (h : l.repeatRounds fuel rounds p = some e) : ∀ event ∈ e.events, event.IsWhole := by
  induction rounds generalizing p with
  | zero => cases h
  | succ rounds ih =>
    have hround := isWhole_round hplain hp fuel
    rw [repeatRounds] at h
    generalize l.round fuel p = r at hround h
    cases r with
    | again q => exact ih hround h
    | ended q fault =>
      obtain rfl := Option.some.inj h
      exact fun event hevent => hround event (List.mem_reverse.mp hevent)
    | stuck => cases h

end Loop
end Prompt

namespace Command

/-! ### What is told -/

/-- The text is the line of a record. -/
def IsRecord (text : String) : Prop := ∃ record : Log.Record, text = record.line

theorem IsRecord.isLines {text : String} (h : IsRecord text) : IsLines text := by
  obtain ⟨record, rfl⟩ := h
  exact .inr ⟨_, rfl⟩

/-- What has been told on the way from one world to the other are pieces of a given kind. -/
def World.Tells (kind : String → Prop) (w w' : World) : Prop :=
  ∃ pieces : List String, (∀ piece ∈ pieces, kind piece) ∧ w'.messages = w.messages ++ String.join pieces

namespace World
variable {kind : String → Prop} {w w' w'' : World}

theorem Tells.of_eq (h : w'.messages = w.messages) : Tells kind w w' :=
  ⟨[], fun _ hpiece => (by cases hpiece), h.trans (String.append_empty).symm⟩

theorem Tells.trans (h : Tells kind w w') (h' : Tells kind w' w'') : Tells kind w w'' := by
  obtain ⟨pieces, hpieces, hw⟩ := h
  obtain ⟨more, hmore, hw'⟩ := h'
  refine ⟨pieces ++ more, fun piece hpiece => ?_, ?_⟩
  · rcases List.mem_append.mp hpiece with hpiece | hpiece
    · exact hpieces piece hpiece
    · exact hmore piece hpiece
  · rw [hw', hw, String.join_append, String.append_assoc]

theorem Tells.mono {wider : String → Prop} (h : Tells kind w w') (hkind : ∀ {text}, kind text → wider text) :
    Tells wider w w' := by
  obtain ⟨pieces, hpieces, hw⟩ := h
  exact ⟨pieces, fun piece hpiece => hkind (hpieces piece hpiece), hw⟩

theorem tells_tell {text : String} (h : kind text) : Tells kind w (w.tell text) :=
  ⟨[text], List.forall_mem_singleton.mpr h, by simp [tell]⟩

theorem tells_note (w : World) (book : Logbook) (record : Log.Record) : Tells IsRecord w (w.note book record) := by
  have htell : Tells IsRecord w (w.tell record.line) := tells_tell ⟨record, rfl⟩
  unfold note
  dsimp only
  split
  · exact htell
  · split
    · exact htell
    · exact htell

theorem tells_noteAll (w : World) (book : Logbook) (records : List Log.Record) :
    Tells IsRecord w (w.noteAll book records) := by
  unfold noteAll
  induction Log.admitted (some book.threshold) records generalizing w with
  | nil => exact .of_eq rfl
  | cons record rest ih => exact (tells_note w book record).trans (ih _)

end World

namespace Workbench

theorem tells_load (bench : Workbench) (w : World) : w.Tells IsRecord (bench.load w).2 := by
  unfold load
  split
  · exact .of_eq rfl
  · split
    · exact .of_eq rfl
    · exact World.tells_noteAll ..
    · split
      · exact .of_eq rfl
      · exact World.tells_noteAll ..

/-- A start tells nothing but records, whether it succeeds or not. -/
theorem tells_start (settings : Settings) (w : World) (input : Input) (sink : Sink) :
    w.Tells IsRecord (start settings w input sink).2 := by
  have hopen : w.Tells IsRecord (openLog settings w).2 := by
    unfold openLog
    split
    · exact .of_eq rfl
    · exact .of_eq rfl
  unfold start
  generalize openLog settings w = opened at hopen ⊢
  obtain ⟨answer, w₁⟩ := opened
  cases answer with
  | error fault => exact hopen
  | ok book =>
    dsimp only
    cases create settings book input sink with
    | error fault => exact hopen
    | ok new =>
      have hload := hopen.trans (new.tells_load w₁)
      dsimp only
      generalize new.load w₁ = loaded at hload ⊢
      obtain ⟨answer, w₂⟩ := loaded
      cases answer with
      | error fault => exact hload
      | ok bench => exact hload.trans (World.tells_noteAll ..)

theorem tells_close (bench : Workbench) (w : World) : w.Tells IsRecord (bench.close w).2 := by
  rw [close_eq, save]
  split
  · exact .of_eq rfl
  · split
    · exact .of_eq rfl
    · next disk _ => exact World.tells_noteAll { w with disk } _ _

theorem tells_dump (bench : Workbench) (w : World) (snapshot : Snapshot) :
    w.Tells IsLines (bench.dump w snapshot) := by
  unfold dump
  split
  · exact World.tells_tell (IsLines.append (.inr ⟨"---", rfl⟩) snapshot.isLines_render)
  · exact .of_eq rfl

end Workbench

theorem tells_attempt {fuel : Nat} {bench : Workbench} {w : World} {source : Program} {a : Attempt}
    (h : attempt fuel bench w source = some a) : w.Tells IsRecord a.world := by
  obtain ⟨t, -, rfl⟩ := Option.map_eq_some_iff.mp h
  exact World.tells_noteAll { w with signal := t.signal } _ _

theorem tells_attemptFile {fuel : Nat} {bench : Workbench} {w : World} {path : String} {a : Attempt}
    (h : attemptFile fuel bench w path = some a) : w.Tells IsRecord a.world := by
  unfold attemptFile at h
  split at h
  · cases h
    exact .of_eq rfl
  · exact tells_attempt h

theorem tells_attemptInput {fuel : Nat} {bench : Workbench} {w : World} {a : Attempt}
    (h : attemptInput fuel bench w = some a) : w.Tells IsRecord a.world := by
  unfold attemptInput at h
  generalize bench.session.input.readAll = r at h
  obtain ⟨answer, input⟩ := r
  cases answer with
  | error fault =>
    cases h
    exact .of_eq rfl
  | ok source =>
    have hsame (signal : Signal) : w.Tells IsRecord { w with signal } := .of_eq rfl
    exact (hsame _).trans (tells_attempt h)

theorem tells_announce (a : Attempt) (path : String) : a.world.Tells IsLines (announce a path) := by
  unfold announce
  split
  · exact .of_eq rfl
  · exact ((World.tells_noteAll ..).mono IsRecord.isLines).trans (Workbench.tells_dump ..)

theorem tells_heed (bench : Workbench) (w : World) {event : Prompt.Event} (h : event.IsWhole) :
    w.Tells IsLines (heed bench w event) := by
  cases event with
  | asked answer => exact .of_eq rfl
  | message text => exact World.tells_tell h
  | record record => exact (World.tells_noteAll w bench.book [record]).mono IsRecord.isLines
  | turned report => exact bench.tells_dump w report.snapshot

theorem tells_heedAll (bench : Workbench) (w : World) {events : List Prompt.Event}
    (h : ∀ event ∈ events, event.IsWhole) : w.Tells IsLines (events.foldl (heed bench) w) := by
  induction events generalizing w with
  | nil => exact .of_eq rfl
  | cons event rest ih =>
    exact (tells_heed bench w (h event (List.mem_cons_self ..))).trans
      (ih _ fun later hlater => h later (List.mem_cons_of_mem _ hlater))

/-! ### Complaints -/

/-- The command has told, on a line of its own, a fault that belongs to its exit code. -/
def Outcome.Complains (o : Outcome) (w : World) : Prop :=
  ∃ before fault after, IsLines before ∧ exitCode (some fault) = o.code ∧
    o.world.messages = w.messages ++ (before ++ ("Error: " ++ fault.message ++ "\n") ++ after)

section
variable {w w' : World}

/-- A complaint after whole lines starts a line. -/
theorem complains_of_told {o : Outcome} {fault : Fault} (h : w.Tells IsLines w')
    (hcode : o.code = exitCode (some fault)) (htold : o.world.messages = (w'.complain fault).messages) :
    o.Complains w := by
  obtain ⟨pieces, hpieces, hw⟩ := h
  refine ⟨String.join pieces, fault, "", .join hpieces, hcode.symm, ?_⟩
  rw [htold, World.complain, World.tell, hw, String.append_empty, String.append_assoc]

theorem World.finish_complains (h : w.Tells IsLines w') {first second : Option Fault}
    (hcode : (w'.finish first second).code ≠ 0) : (w'.finish first second).Complains w := by
  cases first with
  | some fault => exact complains_of_told h rfl rfl
  | none =>
    cases second with
    | some fault => exact complains_of_told h rfl rfl
    | none => exact absurd rfl hcode

/-- Records are not complaints. -/
theorem not_complains_of_records {o : Outcome} (h : w.Tells IsRecord o.world) : ¬ o.Complains w := by
  obtain ⟨pieces, hpieces, hw⟩ := h
  rintro ⟨before, fault, after, hbefore, -, htold⟩
  have hsame : String.join pieces = before ++ ("Error: " ++ fault.message ++ "\n") ++ after :=
    (String.append_right_inj _).mp (hw.symm.trans htold)
  have hlines : ∀ line ∈ pieces.map String.toList, ∃ body, line = 'l' :: body ++ ['\n'] ∧ '\n' ∉ body := by
    intro line hline
    obtain ⟨piece, hpiece, rfl⟩ := List.mem_map.mp hline
    obtain ⟨record, rfl⟩ := hpieces piece hpiece
    exact record.line_eq
  have hbefore' : before.toList = [] ∨ ∃ t, before.toList = t ++ ['\n'] := by
    rcases hbefore with rfl | ⟨t, rfl⟩
    · exact .inl rfl
    · exact .inr ⟨t.toList, String.toList_append⟩
  have hflat : (pieces.map String.toList).flatten =
      before.toList ++ 'E' :: ("rror: ".toList ++ fault.message.toList ++ ['\n'] ++ after.toList) := by
    have := congrArg String.toList hsame
    simpa [String.toList_join, List.flatMap_def] using this
  exact absurd (Text.head_after_lines hlines (by decide) hbefore' hflat) (by decide)

end

/-- A program is run well by a command that catches its output, and then its tape cannot be saved, or its log cannot be
closed. -/
def ClosingFails (fuel : Nat) (settings : Settings) (path : String) (w : World) : Prop :=
  ∃ bench w' a fault, Workbench.start settings w w.input {} = (.ok bench, w') ∧
    attemptFile fuel bench w' path = some a ∧ a.fault = none ∧ (a.bench.close a.world).1 = some fault

theorem run_complains {fuel : Nat} {settings : Settings} {path : String} {w : World} {o : Outcome}
    (h : run fuel settings path w = some o) (hcode : o.code ≠ 0) : o.Complains w := by
  have hstart := (Workbench.tells_start settings w w.input w.output).mono IsRecord.isLines
  unfold run at h
  generalize Workbench.start settings w w.input w.output = started at hstart h
  obtain ⟨answer, w'⟩ := started
  cases answer with
  | error fault =>
    cases h
    exact complains_of_told hstart rfl rfl
  | ok bench =>
    obtain ⟨a, ha, rfl⟩ := Option.map_eq_some_iff.mp h
    have hattempt : w'.Tells IsRecord a.world := by
      split at ha
      · exact tells_attemptInput ha
      · exact tells_attemptFile ha
    have htold := (hstart.trans (hattempt.mono IsRecord.isLines)).trans (tells_announce a path)
    have hclosed := htold.trans ((a.bench.tells_close _).mono IsRecord.isLines)
    have hsettled : w.Tells IsLines (settle (a.bench.close (announce a path)).2 a.bench.session) :=
      hclosed.trans (.of_eq rfl)
    exact World.finish_complains hsettled hcode

theorem repl_complains {fuel : Nat} {settings : Settings} {w : World} {o : Outcome}
    (h : repl fuel settings w = some o) (hcode : o.code ≠ 0) : o.Complains w := by
  have hstart := (Workbench.tells_start settings w w.input.buffer w.output).mono IsRecord.isLines
  unfold repl at h
  generalize Workbench.start settings w w.input.buffer w.output = started at hstart h
  obtain ⟨answer, w'⟩ := started
  cases answer with
  | error fault =>
    cases h
    exact complains_of_told hstart rfl rfl
  | ok bench =>
    obtain ⟨e, he, rfl⟩ := Option.map_eq_some_iff.mp h
    have hwhole : ∀ event ∈ e.events, event.IsWhole :=
      Prompt.Loop.isWhole_repeatRounds rfl (fun event hevent => (by cases hevent)) he
    have hsignal : w.Tells IsLines { w' with signal := e.signal } := hstart.trans (.of_eq rfl)
    have htold := hsignal.trans (tells_heedAll bench _ hwhole)
    have hclosed := htold.trans ((Workbench.tells_close { bench with session := e.session } _).mono IsRecord.isLines)
    have hsettled : w.Tells IsLines (settle ({ bench with session := e.session }.close
        (e.events.foldl (heed bench) { w' with signal := e.signal })).2 e.session) := hclosed.trans (.of_eq rfl)
    exact World.finish_complains hsettled hcode

/-- Inspecting complains unless the viewer has been shown well after a turn without a fault. If it has failed even so,
the tape could not be saved or the log could not be closed. -/
theorem exhibit_complains_iff {path : String} {failure : Option Fault} {w : World} {a : Attempt}
    (htold : w.Tells IsRecord a.world) (ha : a.result = none → a.fault.isSome = true)
    (hcode : (exhibit path failure a).code ≠ 0) :
    (exhibit path failure a).Complains w ↔
      ¬(failure = none ∧ a.fault = none ∧ ∃ fault, (a.bench.close a.world).1 = some fault) := by
  have hrecords : w.Tells IsRecord { (a.bench.close a.world).2 with input := a.bench.session.input } :=
    (htold.trans (a.bench.tells_close a.world)).trans (.of_eq rfl)
  have hlines := hrecords.mono IsRecord.isLines
  unfold exhibit present at hcode ⊢
  cases hfault : a.fault with
  | some fault =>
    refine iff_of_true ?_ fun hnot => (by cases hnot.2.1)
    cases a.result with
    | none => exact complains_of_told hlines rfl rfl
    | some result =>
      cases failure with
      | none => exact complains_of_told hlines rfl rfl
      | some other =>
        have hcomplaint : IsLines ("Error: " ++ fault.message ++ "\n") := .inr ⟨_, rfl⟩
        exact complains_of_told (hlines.trans (World.tells_tell hcomplaint)) rfl rfl
  | none =>
    cases hresult : a.result with
    | none =>
      rw [hfault] at ha
      cases ha hresult
    | some result =>
      cases failure with
      | some other => exact iff_of_true (complains_of_told hlines rfl rfl) fun hnot => (by cases hnot.1)
      | none =>
        simp only [hfault, hresult] at hcode
        refine iff_of_false (not_complains_of_records hrecords) fun hnot => hnot ⟨rfl, rfl, ?_⟩
        cases hclosing : (a.bench.close a.world).1 with
        | some fault => exact ⟨fault, rfl⟩
        | none =>
          rw [hclosing] at hcode
          exact absurd rfl hcode

/-- **A command that fails tells its fault, with one exception.** Whenever running a program or the prompt loop ends
with an exit code other than zero, it has told a fault of that code. Inspecting a program has, exactly unless the
program ran well, its tape could not be saved or its log could not be closed, and the viewer has not failed. -/
theorem failure_told (fuel : Nat) (settings : Settings) (w : World) :
    (∀ path o, run fuel settings path w = some o → o.code ≠ 0 → o.Complains w) ∧
    (∀ o, repl fuel settings w = some o → o.code ≠ 0 → o.Complains w) ∧
    ∀ path failure o, inspect fuel settings path failure w = some o → o.code ≠ 0 →
      (o.Complains w ↔ ¬(failure = none ∧ ClosingFails fuel settings path w)) := by
  refine ⟨fun path o => run_complains, fun o => repl_complains, fun path failure o h hcode => ?_⟩
  have hstart := Workbench.tells_start settings w w.input {}
  cases hstarted : Workbench.start settings w w.input {} with
  | mk answer w' =>
    rw [hstarted] at hstart
    cases answer with
    | error fault =>
      unfold inspect at h
      rw [hstarted] at h
      cases h
      refine iff_of_true (complains_of_told (hstart.mono IsRecord.isLines) rfl rfl) ?_
      rintro ⟨-, bench, w'', a, closing, hok, -⟩
      cases hstarted.symm.trans hok
    | ok bench =>
      rw [inspect_of_start hstarted] at h
      obtain ⟨a, ha, rfl⟩ := Option.map_eq_some_iff.mp h
      have htold : w.Tells IsRecord a.world := hstart.trans (tells_attemptFile ha)
      rw [exhibit_complains_iff htold (result_of_attemptFile ha).2 hcode]
      -- There is only one start and one attempt.
      have hcloses : ClosingFails fuel settings path w ↔
          a.fault = none ∧ ∃ fault, (a.bench.close a.world).1 = some fault := by
        constructor
        · rintro ⟨bench', w'', a', closing, hstarted', ha', hwell, hclosing⟩
          obtain ⟨hbench, rfl⟩ := Prod.mk.inj (hstarted.symm.trans hstarted')
          obtain rfl := Except.ok.inj hbench
          obtain rfl := Option.some.inj (ha.symm.trans ha')
          exact ⟨hwell, closing, hclosing⟩
        · rintro ⟨hwell, closing, hclosing⟩
          exact ⟨bench, w', a, closing, hstarted, ha, hwell, hclosing⟩
      rw [hcloses]

/-- Settings whose state file is to be in a directory that is missing. -/
def misplaced : Settings := { tapeSize := 2, stateFile := "missing/state" }

/-- A world with one program, `+.`. -/
def plusWorld : World :=
  { disk := { workingDirectory := ["home"], entries := [(["home", "plus"], .file [0x2b, 0x2e])] }, input := .absent }

/-- The tape of a program cannot be saved, and the viewer fails in addition. -/
theorem failure_told_misplaced :
    ∃ r i, run 9 misplaced "plus" plusWorld = some r ∧ r.code = 2 ∧ r.Complains plusWorld ∧
      inspect 9 misplaced "plus" (some (.bare .io)) plusWorld = some i ∧ i.code = 4 ∧ i.Complains plusWorld := by
  have hrun : (run 9 misplaced "plus" plusWorld).map (·.code) = some 2 := by decide +kernel
  have hinspect : (inspect 9 misplaced "plus" (some (.bare .io)) plusWorld).map (·.code) = some 4 := by decide +kernel
  obtain ⟨r, hr, hcode⟩ := Option.map_eq_some_iff.mp hrun
  obtain ⟨i, hi, hcode'⟩ := Option.map_eq_some_iff.mp hinspect
  obtain ⟨hruns, -, hinspects⟩ := failure_told 9 misplaced plusWorld
  refine ⟨r, i, hr, hcode, hruns _ r hr (by rw [hcode]; decide), hi, hcode', ?_⟩
  exact (hinspects _ _ i hi (by rw [hcode']; decide)).mpr fun hnone => (by cases hnone.1)

/-- A world with the same program, in which no log file can be closed. -/
def stuckLogWorld : World := { plusWorld with logFailure := some (.told "close log: input/output error") }

/-- Where running tells that the tape cannot be saved, inspecting ends with the same code and tells nothing. So it does
where the log cannot be closed. -/
theorem inspect_fails_silently :
    (∃ r i, run 9 misplaced "plus" plusWorld = some r ∧ r.code = 2 ∧
      r.world.messages = "Error: writing state file: open missing/state: no such file or directory\n" ∧
      inspect 9 misplaced "plus" none plusWorld = some i ∧ i.code = 2 ∧ i.world.messages = "" ∧
      ¬ i.Complains plusWorld) ∧
    ∃ r i, run 9 { tapeSize := 2, logFile := "log" } "plus" stuckLogWorld = some r ∧ r.code = 2 ∧
      r.world.messages = "Error: close log: input/output error\n" ∧
      inspect 9 { tapeSize := 2, logFile := "log" } "plus" none stuckLogWorld = some i ∧ i.code = 2 ∧
      i.world.messages = "" ∧ ¬ i.Complains stuckLogWorld := by
  have hsilent {settings : Settings} {w : World} {told : String} (hempty : w.messages = "")
      (hrun : (run 9 settings "plus" w).map (fun o => (o.code, o.world.messages)) = some (2, told))
      (hinspect : (inspect 9 settings "plus" none w).map (fun o => (o.code, o.world.messages)) = some (2, "")) :
      ∃ r i, run 9 settings "plus" w = some r ∧ r.code = 2 ∧ r.world.messages = told ∧
        inspect 9 settings "plus" none w = some i ∧ i.code = 2 ∧ i.world.messages = "" ∧ ¬ i.Complains w := by
    obtain ⟨r, hr, hrun⟩ := Option.map_eq_some_iff.mp hrun
    obtain ⟨i, hi, hinspect⟩ := Option.map_eq_some_iff.mp hinspect
    obtain ⟨hcode, htold⟩ := Prod.mk.inj hrun
    obtain ⟨hcode', htold'⟩ := Prod.mk.inj hinspect
    exact ⟨r, i, hr, hcode, htold, hi, hcode', htold', not_complains_of_records (.of_eq (htold'.trans hempty.symm))⟩
  exact ⟨hsilent rfl (by decide +kernel) (by decide +kernel), hsilent rfl (by decide +kernel) (by decide +kernel)⟩

end Command
end TapeMachine
