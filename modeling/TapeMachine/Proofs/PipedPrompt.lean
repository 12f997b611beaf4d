import TapeMachine.Command.Repl
import TapeMachine.Proofs.Cursor
import TapeMachine.Proofs.Workbenches

/-! The prompt loop of a command whose standard input is a pipe.

The command reads its lines and the input of its programs through one buffer. Whatever portions the pipe delivers its
bytes in, the command leads to what reading the list of these bytes out leads to (`Prompt.readOut`): the same tape and
turns, which are saved, and the same output. The session that it starts with does not depend on its input
(`Workbench.start_onInput`), the loop reads the list out (`Prompt.Loop.tracks`), and what is told meanwhile goes to the
log and the messages only. -/
namespace TapeMachine

/-! ### Pipes -/

/-- A source that delivers these bytes and then the plain end of the input, and cancels nothing. It may deliver them in
any portions, and after fewer than a hundred empty reads each. -/
structure Source.Delivers (s : Source) (bytes : List UInt8) : Prop extends s.HandsOut bytes where
  idle : s.idle < 100
  gaps : ∀ n, s.pacing.gap n < 100

theorem Source.Delivers.feeds {s : Source} {bytes : List UInt8} (h : s.Delivers bytes) :
    (Input.plain s).buffer.Feeds bytes := by
  have hend : s.ending.isA .endOfInput = true := by
    rw [h.ending]
    rfl
  have hcalm : s.cancelAt ≤ s.calls := by
    rw [h.quiet]
    exact Nat.zero_le _
  have hsound : Feed.IsSound { source := s } := ⟨⟨hend, hcalm⟩, h.idle, h.gaps, fun _ hnone => by cases hnone⟩
  exact ⟨_, rfl, hsound, h.data, h.quiet, h.ending, fun _ hnone => by cases hnone⟩

namespace Command

/-! ### The end of a command -/

/-- What an event leaves is in the log and the messages. -/
theorem follows_heed {own : Place → Prop} {bench : Workbench} {w : World}
    (hlog : Logbook.KeptIn own bench.book.file w.disk) (event : Prompt.Event) : w.Follows own (heed bench w event) := by
  cases event with
  | asked answer => exact .refl own w
  | message text => exact ⟨.refl own w.disk, rfl, rfl, rfl, rfl⟩
  | record record => exact World.follows_noteAll hlog [record]
  | turned report =>
    simp only [heed, Workbench.dump]
    split
    · exact ⟨.refl own w.disk, rfl, rfl, rfl, rfl⟩
    · exact .refl own w

theorem follows_heedAll {own : Place → Prop} {bench : Workbench} {w : World}
    (hlog : Logbook.KeptIn own bench.book.file w.disk) (events : List Prompt.Event) :
    w.Follows own (events.foldl (heed bench) w) := by
  induction events generalizing w with
  | nil => exact .refl own w
  | cons event rest ih =>
    have hheed := follows_heed hlog event
    exact hheed.trans (ih (hlog.follows hheed.disk))

/-- How a command ends whose loop has ended. -/
def wrapUp (bench : Workbench) (w : World) (e : Prompt.Ended) : Outcome :=
  let told := e.events.foldl (heed bench) { w with signal := e.signal }
  let closed := { bench with session := e.session }.close told
  (settle closed.2 e.session).finish e.fault closed.1

theorem repl_of_start {settings : Settings} {w w' : World} {bench : Workbench}
    (h : Workbench.start settings w w.input.buffer w.output = (.ok bench, w')) (fuel : Nat) :
    repl fuel settings w
      = ((loop settings bench.book).run fuel bench.session (.shared none) w'.signal).map (wrapUp bench w') := by
  unfold repl
  rw [h]
  rfl

/-- A reading keeps a sink. -/
theorem sink_readOut {fuel : Nat} {s : Session} {bytes : List UInt8} {r : Prompt.Reading}
    (hsink : ∃ sink, s.sink = some sink) (h : Prompt.readOut fuel s bytes = some r) :
    ∃ sink, r.session.sink = some sink := by
  fun_induction Prompt.readOut fuel s bytes generalizing r with
  | case1 s =>
    obtain rfl := Option.some.inj h
    exact hsink
  | case2 =>
    obtain rfl := Option.some.inj h
    exact hsink
  | case3 => cases h
  | case4 =>
    rename_i s bytes _ line rest _ t hturn ih
    obtain ⟨later, hlater, rfl⟩ := Option.map_eq_some_iff.mp h
    obtain ⟨sink, hsink⟩ := hsink
    have hkept := ih (Session.sink_of_turn (s := { s with input := .plain { data := rest } }) hsink hturn) hlater
    exact hkept

/-- The outcome of a command shows the reading: its output is on the standard output, what it leaves is left on the
standard input, and its tape, pointer and turns are in the state file, if there is one apart from the log. It fails only
if the log cannot be closed. -/
structure Outcome.Shows (o : Outcome) (settings : Settings) (w : World) (r : Prompt.Reading) : Prop where
  output : r.session.sink = some o.world.output
  input : o.world.input.Feeds r.left
  saved : ∀ place, w.disk.target settings.stateFile = .ok place → w.disk.target settings.logFile ≠ .ok place →
    o.code = (if settings.logFile = "" then 0 else exitCode w.logFailure) ∧
      o.world.disk.find? place = some (.file r.session.snapshot.encode)

theorem wrapUp_shows {settings : Settings} {w w' : World} {sink after : Sink} {bench : Workbench} {e : Prompt.Ended}
    {r : Prompt.Reading} (hstarted : bench.Started settings w sink w') (hended : e.Tracks r)
    (hsink : r.session.sink = some after) : (wrapUp bench w' e).Shows settings w r := by
  have htracks := hended.session
  have hgiven : e.session.sink = some after := htracks.sink.trans hsink
  have hlog : Logbook.KeptIn (w.disk.target settings.logFile = .ok ·) bench.book.file
      ({ w' with signal := e.signal } : World).disk := by
    rw [hstarted.logFile]
    exact hstarted.log
  have htold := follows_heedAll hlog e.events
  simp only [wrapUp]
  generalize e.events.foldl (heed bench) { w' with signal := e.signal } = told at htold ⊢
  refine ⟨?_, ?_, fun place hstate hother => ?_⟩
  · rw [hsink, (World.finish_keeps ..).2.2, settle, hgiven]
    rfl
  · rw [(World.finish_keeps ..).2.1]
    exact htracks.feed
  · have hfile : told.disk.target bench.stateFile = .ok place := by
      rw [hstarted.stateFile]
      exact htold.disk.target (hstarted.follows.disk.target hstate)
    obtain ⟨closed, hclose, -, hsaved⟩ := Workbench.close_spec { bench with session := e.session } hfile hother
      (hlog.follows htold.disk)
    have hlogFailure : told.logFailure = w.logFailure := htold.logFailure.trans hstarted.follows.logFailure
    rw [hclose, hended.fault, Session.snapshot_congr htracks.options.symm htracks.store.symm htracks.turns.symm]
    refine ⟨?_, ?_⟩
    · rw [World.finish_code, Option.none_or, World.closeLog, hstarted.logFile, hlogFailure]
      split <;> rfl
    · rw [(World.finish_keeps ..).1]
      exact hsaved

/-- **A command on a pipe reads its input through one cursor.** Once it has started, which takes no input, it leads to
what reading the list of bytes out leads to, whatever portions the pipe delivers them in: to the same store and count of
turns, and to the outcome that shows them. It comes to no end just where the list is not read out either. Every byte is
used at most once, in order, as part of a line or as the input of a program. -/
theorem repl_reads_out {settings : Settings} {w started : World} {bench : Workbench}
    (hstart : Workbench.start settings w .absent w.output = (.ok bench, started)) (hclear : w.signal = .clear)
    (hcalm : w.output.cancelAt ≤ w.output.writes.size) {source : Source} {bytes : List UInt8}
    (hsource : source.Delivers bytes) (fuel : Nat) :
    Option.Rel
      (fun outcome r => outcome.Shows settings w r ∧ r.usedBytes ++ r.left = bytes ∧
        ∃ e, (loop settings bench.book).run fuel { bench.session with input := .buffered { source } } (.shared none)
            .clear = some e ∧
          e.session.store = r.session.store ∧ e.session.turns = r.session.turns ∧ e.fault = none)
      (repl fuel settings { w with input := .plain source }) (Prompt.readOut fuel bench.session bytes) := by
  have honpipe := Workbench.start_onInput hstart (.plain source) (Input.plain source).buffer
  have hstarted := Workbench.started_of_start honpipe
  have hsignal : started.signal = .clear := hstarted.follows.signal.trans hclear
  have hsink : bench.session.sink = some w.output := hstarted.sink
  have htracks : { bench.session with input := .buffered { source } }.Tracks bench.session bytes := by
    refine ⟨rfl, rfl, rfl, rfl, hsource.feeds, fun k hk => ?_⟩
    obtain rfl := Option.some.inj (hsink.symm.trans hk)
    exact hcalm
  have hloop := Prompt.Loop.tracks (l := loop settings bench.book) (fun _ => rfl) (fun _ h => h) htracks fuel none
  have hrepl : repl fuel settings { w with input := .plain source }
      = ((loop settings bench.book).run fuel { bench.session with input := .buffered { source } } (.shared none)
          .clear).map (wrapUp (bench.onInput (Input.plain source).buffer) { started with input := .plain source }) := by
    rw [← hsignal]
    exact repl_of_start honpipe fuel
  rw [hrepl]
  generalize (loop settings bench.book).run fuel _ (.shared none) .clear = p at hloop ⊢
  generalize hread : Prompt.readOut fuel bench.session bytes = q at hloop ⊢
  cases hloop with
  | none => exact .none
  | @some e r hended =>
    obtain ⟨after, hafter⟩ := sink_readOut ⟨_, hsink⟩ hread
    have hshows := wrapUp_shows hstarted hended hafter
    exact .some ⟨⟨hshows.output, hshows.input, hshows.saved⟩, Prompt.usedBytes_readOut hread, e, rfl,
      hended.session.store, hended.session.turns, hended.fault⟩

/-- A line that takes a byte behind it, one that is rejected, one with a carriage return and an empty one, in portions
of one to three bytes with empty reads between. -/
theorem repl_reads_out_portions :
    ∃ (settings : Settings) (w started : World) (bench : Workbench) (source : Source) (outcome : Outcome)
      (r : Prompt.Reading),
      Workbench.start settings w .absent w.output = (.ok bench, started) ∧
      source.Delivers [0x2c, 0x2e, 0x0a, 0x41, 0x5b, 0x0a, 0x2b, 0x2e, 0x0d, 0x0a, 0x0a, 0x5a] ∧
      repl 30 settings { w with input := .plain source } = some outcome ∧
      Prompt.readOut 30 bench.session source.data = some r ∧ outcome.Shows settings w r ∧
      r.usedBytes ++ r.left = source.data ∧
      (∃ e, (loop settings bench.book).run 30 { bench.session with input := .buffered { source } } (.shared none)
          .clear = some e ∧
        e.session.store = r.session.store ∧ e.session.turns = r.session.turns ∧ e.fault = none) ∧
      outcome.world.output.delivered.toList = [0x41, 0x42] := by
  -- The lines are `,.`, `[` and `+.`; the first takes the `A` before the second.
  let settings : Settings :=
    { tapeSize := 2, maxSteps := 20, stateFile := "state", logLevel := "debug", logFile := "log" }
  let w : World := { disk := { workingDirectory := ["home"], entries := [] }, input := .absent }
  let source : Source :=
    { data := [0x2c, 0x2e, 0x0a, 0x41, 0x5b, 0x0a, 0x2b, 0x2e, 0x0d, 0x0a, 0x0a, 0x5a]
      pacing := { chunk := fun n => n % 3 + 1, gap := fun n => n % 2 * 99 } }
  have hsource : source.Delivers source.data := ⟨⟨rfl, rfl, rfl⟩, by decide, fun n => show n % 2 * 99 < 100 by omega⟩
  have hok : (Workbench.start settings w .absent w.output).1.toOption.isSome = true := by decide +kernel
  cases hstart : Workbench.start settings w .absent w.output with
  | mk answer started =>
    rw [hstart] at hok
    cases answer with
    | error fault => cases hok
    | ok bench =>
      have hrun : (repl 30 settings { w with input := .plain source }).map (·.world.output.delivered.toList)
          = some [0x41, 0x42] := by decide +kernel
      obtain ⟨outcome, hrepl, houtput⟩ := Option.map_eq_some_iff.mp hrun
      have hreads := repl_reads_out hstart rfl (by decide) hsource 30
      rw [hrepl] at hreads
      cases hread : Prompt.readOut 30 bench.session source.data with
      | none =>
        rw [hread] at hreads
        cases hreads
      | some r =>
        rw [hread] at hreads
        cases hreads with
        | some hrel =>
          obtain ⟨hshows, hused, hloop⟩ := hrel
          exact ⟨settings, w, started, bench, source, outcome, r, hstart, hsource, hrepl, hread, hshows, hused, hloop,
            houtput⟩

end Command
end TapeMachine
