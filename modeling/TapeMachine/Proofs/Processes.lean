import TapeMachine.Command.Run
import TapeMachine.Proofs.Workbenches

/-! Processes that share a state file.

Each process of a chain takes over the tape that the one before has saved, runs its program as one turn and saves the
tape. Between two processes nothing is left but the disk. Still the chain behaves as one session that runs the programs
one after the other (`Command.Told`): one process runs one turn of the session that the state file carries
(`Command.run_spec`), and leaves a state file that carries the session after it. -/
namespace TapeMachine.Command

/-! ### One process -/

theorem World.finish_spec (w : World) (fault : Option Fault) :
    (w.finish fault none).world.disk = w.disk ∧ (w.finish fault none).world.input = w.input ∧
      (w.finish fault none).world.output = w.output ∧ (w.finish fault none).code = exitCode fault := by
  obtain ⟨hdisk, hinput, houtput⟩ := w.finish_keeps fault none
  refine ⟨hdisk, hinput, houtput, ?_⟩
  rw [finish_code, Option.or_none]

theorem follows_announce {own : Place → Prop} {a : Attempt} (hlog : Logbook.KeptIn own a.bench.book.file a.world.disk)
    (path : String) : a.world.Follows own (announce a path) := by
  unfold announce
  cases a.result with
  | none => exact .refl own _
  | some result =>
    have hnotes := World.follows_noteAll hlog [finishedRecord path result]
    simp only [Workbench.dump]
    split
    · exact ⟨hnotes.disk, hnotes.input, hnotes.output, hnotes.signal, hnotes.logFailure⟩
    · exact hnotes

/-- What a process is started with, besides the settings and the disk. Its log can be closed. -/
structure Invocation where
  path : String
  input : Input
  output : Sink := {}
  signal : Signal := .clear

namespace Invocation

def world (p : Invocation) (disk : Disk) : World :=
  { disk, input := p.input, output := p.output, signal := p.signal }

/-- The program that a process finds at its path once it has started. -/
def program (p : Invocation) (settings : Settings) (disk : Disk) : Except Fault Program :=
  fileProgram (Workbench.start settings (p.world disk) p.input p.output).2.disk p.path

/-- A session on the streams of a process. -/
def connect (p : Invocation) (s : Session) : Session := { s with input := p.input, sink := some p.output }

end Invocation

/-- What a process leaves that has run `t` as its turn: the snapshot is saved, and the streams are those of the
turn. -/
structure Outcome.Tells (o : Outcome) (place : Place) (t : Turn) : Prop where
  saved : o.world.disk.find? place = some (.file t.session.snapshot.encode)
  input : o.world.input = t.session.input
  output : t.session.sink = some o.world.output
  code : o.code = exitCode t.fault

def Attempt.ofTurn (bench : Workbench) (w : World) (t : Turn) : Attempt :=
  { bench := { bench with session := t.session }
    world := ({ w with signal := t.signal }).noteAll bench.book t.records
    result := some t.result
    fault := t.fault }

theorem close_ofTurn {own : Place → Prop} {bench : Workbench} {w : World} {place : Place} {t : Turn}
    (hfile : w.disk.target bench.stateFile = .ok place) (hstate : ¬ own place)
    (hlog : Logbook.KeptIn own bench.book.file w.disk) (hcloses : w.logFailure = none) (path : String) :
    ∃ w', (Attempt.ofTurn bench w t).bench.close (announce (Attempt.ofTurn bench w t) path) = (none, w') ∧
      w.disk.Follows (fun q => own q ∨ q = place) w'.disk ∧
      w'.disk.find? place = some (.file t.session.snapshot.encode) := by
  have hnotes := World.follows_noteAll (w := { w with signal := t.signal }) hlog t.records
  have hlog₁ := hlog.follows hnotes.disk
  have hannounce := follows_announce (a := .ofTurn bench w t) hlog₁ path
  have hdisk := hnotes.disk.trans hannounce.disk
  obtain ⟨w', hclose, hclosed, hsaved⟩ := Workbench.close_spec (Attempt.ofTurn bench w t).bench
    (hdisk.target hfile) hstate (hlog₁.follows hannounce.disk)
  have hnone : (announce (.ofTurn bench w t) path).closeLog bench.book = none := by
    rw [World.closeLog, hannounce.logFailure,
      show (Attempt.ofTurn bench w t).world.logFailure = _ from hnotes.logFailure,
      show ({ w with signal := t.signal } : World).logFailure = none from hcloses, ite_self]
  exact ⟨w', hclose.trans (by rw [← hnone]; rfl), (hdisk.mono fun _ => .inl).trans hclosed.disk, hsaved⟩

/-- **One process runs one turn** of the session that the state file carries, and writes to no file but the state file
and the log. -/
theorem run_spec {own : Place → Prop} {settings : Settings} {o : Options} {disk : Disk} {place : Place} {s : Session}
    (hs : s.WellFormed o) (husable : settings.Usable o disk place) (hcarried : Carried disk place s)
    (hstate : ¬ own place) (hlog : Logbook.KeptIn own settings.logFile disk) {p : Invocation} (hpath : p.path ≠ "-")
    {content : List UInt8} (hread : disk.read p.path = .ok content) {fuel : Nat} {outcome : Outcome}
    (hrun : run fuel settings p.path (p.world disk) = some outcome) :
    ∃ source t, p.program settings disk = .ok source ∧
      ((∀ found, disk.locate p.path = .ok found → ¬ own found) → source.toList = content) ∧
      (p.connect s).turn fuel p.signal source = some t ∧ outcome.Tells place t ∧
      disk.Follows (fun q => own q ∨ q = place) outcome.world.disk := by
  obtain ⟨bench, w, hstart, hstarted, hfile, hbook, hlike⟩ :=
    Workbench.start_spec (w := p.world disk) hs husable hcarried hstate hlog p.input p.output
  obtain ⟨held, hheld, hkept⟩ := hstarted.disk.read hread
  have hprogram : fileProgram w.disk p.path = .ok held.toArray := by
    rw [fileProgram, hheld]
  have hlog₁ : Logbook.KeptIn own bench.book.file w.disk := by
    rw [hbook]
    exact hlog.follows hstarted.disk
  unfold run at hrun
  simp only [show (p.world disk).input = p.input from rfl, show (p.world disk).output = p.output from rfl, hstart,
    hpath, if_false, attemptFile, hprogram, attempt, Option.map_map] at hrun
  obtain ⟨a, hturn, houtcome⟩ := Option.map_eq_some_iff.mp hrun
  rw [hstarted.signal] at hturn
  obtain ⟨t, hspec, hsame⟩ := hlike.symm.turn hturn
  obtain ⟨sink, hsink⟩ := Session.sink_of_turn (show (p.connect s).sink = some p.output from rfl) hspec
  obtain ⟨w', hclose, hfollows, hsaved⟩ := close_ofTurn (t := a)
    (by rw [hfile]; exact hstarted.disk.target husable.state) hstate hlog₁ hstarted.logFailure p.path
  obtain ⟨hdisk, hinput, houtput, hcode⟩ := World.finish_spec (settle w' a.session) a.fault
  obtain rfl : (settle w' a.session).finish a.fault none = outcome := by
    change (settle ((Attempt.ofTurn bench w a).bench.close (announce (.ofTurn bench w a) p.path)).2 a.session).finish
      a.fault ((Attempt.ofTurn bench w a).bench.close (announce (.ofTurn bench w a) p.path)).1 = outcome at houtcome
    rw [hclose] at houtcome
    exact houtcome
  refine ⟨held.toArray, t, ?_, fun hother => hkept hother, hspec, ⟨?_, ?_, ?_, ?_⟩, ?_⟩
  · rw [Invocation.program, hstart]
    exact hprogram
  · rw [hdisk, hsame.session.snapshot]
    exact hsaved
  · rw [hinput, hsame.session.input]
    rfl
  · have hsame := hsame.session.sink
    rw [hsink] at hsame ⊢
    rw [houtput, settle, ← hsame]
    rfl
  · rw [hcode, hsame.fault]
  · rw [hdisk]
    exact (hstarted.disk.mono fun _ => .inl).trans hfollows

/-! ### Chains -/

/-- Processes that run one after the other under the same settings, each to its end and on the disk that the one
before has left. -/
inductive Chain (settings : Settings) : Disk → List Invocation → List Outcome → Prop
  | nil {disk : Disk} : Chain settings disk [] []
  | cons {disk : Disk} {p : Invocation} {o : Outcome} {rest : List Invocation} {outcomes : List Outcome} (fuel : Nat) :
      run fuel settings p.path (p.world disk) = some o → Chain settings o.world.disk rest outcomes →
      Chain settings disk (p :: rest) (o :: outcomes)

/-- The outcomes of a chain, each process within `fuel` steps. -/
def runAll (fuel : Nat) (settings : Settings) : Disk → List Invocation → Option (List Outcome)
  | _, [] => some []
  | disk, p :: rest => do
    let o ← run fuel settings p.path (p.world disk)
    let outcomes ← runAll fuel settings o.world.disk rest
    return o :: outcomes

theorem Chain.of_runAll {fuel : Nat} {settings : Settings} {disk : Disk} {processes : List Invocation}
    {outcomes : List Outcome} (h : runAll fuel settings disk processes = some outcomes) :
    Chain settings disk processes outcomes := by
  induction processes generalizing disk outcomes with
  | nil =>
    cases h
    exact .nil
  | cons p rest ih =>
    obtain ⟨o, hrun, h⟩ := Option.bind_eq_some_iff.mp h
    obtain ⟨later, hlater, h⟩ := Option.bind_eq_some_iff.mp h
    cases h
    exact .cons fuel hrun (ih hlater)

/-- A chain told by the turns of one session, which `s` is when the chain has come to `disk`. Each process runs the
program that it finds, which is what the file held on the disk `first` unless the log is kept in that file, as the
next turn of the session on the streams of the process. It leaves a state file that decodes to the snapshot of the
session after that turn, streams as the turn leaves them, and the exit code of the turn. -/
inductive Told (settings : Settings) (first : Disk) : Disk → Session → List Invocation → List Outcome → Prop
  | nil {disk : Disk} {s : Session} : Told settings first disk s [] []
  | cons {disk : Disk} {s : Session} {p : Invocation} {o : Outcome} {rest : List Invocation} {outcomes : List Outcome}
      {source : Program} {t : Turn} {content : List UInt8}
      (program : p.program settings disk = .ok source)
      (original : (∀ place, first.locate p.path = .ok place → first.target settings.logFile ≠ .ok place) →
        first.read p.path = .ok source.toList)
      (turn : (p.connect s).Turns p.signal source t)
      (saved : o.world.disk.read settings.stateFile = .ok content)
      (decoded : Snapshot.parse content = (t.session.snapshot, none))
      (input : o.world.input = t.session.input)
      (output : t.session.sink = some o.world.output)
      (code : o.code = exitCode t.fault)
      (later : Told settings first o.world.disk t.session rest outcomes) :
      Told settings first disk s (p :: rest) (o :: outcomes)

namespace Settings.Usable
variable {settings : Settings} {o : Options} {first disk : Disk} {place : Place}

theorem follows {own : Place → Prop} (h : settings.Usable o first place) (hd : first.Follows own disk) :
    settings.Usable o disk place :=
  { h with state := hd.target h.state, log := h.log.follows hd }

theorem log_ne (h : settings.Usable o first place) : first.target settings.logFile ≠ .ok place := by
  intro hlog
  rcases h.log with hempty | ⟨found, hfound, hne⟩
  · exact Disk.ne_empty_of_target hlog hempty
  · exact hne (Except.ok.inj (hfound.symm.trans hlog))

end Settings.Usable

/-- What is left to tell of a chain that has come to `disk` with a session that the state file carries. -/
theorem Chain.told_of_carried {settings : Settings} {o : Options} {first disk : Disk} {place : Place} {s : Session}
    {processes : List Invocation} {outcomes : List Outcome} (hchain : Chain settings disk processes outcomes)
    (husable : settings.Usable o first place) (hmissing : first.find? place = none)
    (hprograms : ∀ p ∈ processes, p.path ≠ "-" ∧ ∃ content, first.read p.path = .ok content)
    (hfollows : first.Follows (fun q => first.target settings.logFile = .ok q ∨ q = place) disk)
    (hs : s.WellFormed o) (hcarried : Carried disk place s) : Told settings first disk s processes outcomes := by
  induction hchain generalizing s with
  | nil => exact .nil
  | @cons disk p outcome rest outcomes fuel hrun _ ih =>
    obtain ⟨hpath, content, hread⟩ := hprograms p (List.mem_cons_self ..)
    obtain ⟨found, hlocate, hfind, -⟩ := Disk.read_eq_ok_iff.mp hread
    have hother : found ≠ place := by
      rintro rfl
      cases hfind.symm.trans hmissing
    obtain ⟨held, hheld, hkept⟩ := hfollows.read hread
    have hlog : Logbook.KeptIn (fun q => first.target settings.logFile = .ok q) settings.logFile disk :=
      Logbook.KeptIn.follows (husable.log.imp_right fun ⟨q, htarget, _⟩ => ⟨q, htarget, htarget⟩) hfollows
    obtain ⟨source, t, hprogram, hsource, hturn, htells, hwritten⟩ :=
      run_spec hs (husable.follows hfollows) hcarried husable.log_ne hlog hpath hheld hrun
    have hnext : t.session.WellFormed o := (hs.withTape rfl rfl hs.tape : (p.connect s).WellFormed o).turned hturn
    have hparse : Snapshot.parse t.session.snapshot.encode = (t.session.snapshot, none) :=
      Snapshot.parse_encode (hnext.isStorable (Session.fits_turns hturn))
    have hdisk := hfollows.trans hwritten
    obtain ⟨hplace, -, hname⟩ := Disk.target_eq_ok_iff.mp (hdisk.target husable.state)
    refine .cons hprogram (fun hlogged => ?_) ⟨fuel, hturn⟩
      (Disk.read_eq_ok_iff.mpr ⟨place, hplace, htells.saved, hname⟩) hparse htells.input htells.output htells.code
      (ih (fun q hq => hprograms q (List.mem_cons_of_mem p hq)) hdisk hnext (.inr ⟨_, htells.saved, hparse⟩))
    have hown : ∀ q, first.locate p.path = .ok q → ¬ (first.target settings.logFile = .ok q ∨ q = place) := by
      intro q hq
      obtain rfl := Except.ok.inj (hlocate.symm.trans hq)
      exact not_or.mpr ⟨hlogged found hlocate, hother⟩
    rw [hread, hsource ?_, hkept hown]
    intro q hq
    obtain rfl := Except.ok.inj ((hfollows.locate hlocate).symm.trans hq)
    exact hlogged found hlocate

/-- **A chain of processes that share a state file behaves as one session.** Whatever the programs, whether they end,
are rejected or stopped, the chain is told by the turns of one session made from the options, if there is no state file
at first. -/
theorem Chain.told {settings : Settings} {o : Options} {disk : Disk} {place : Place} {processes : List Invocation}
    {outcomes : List Outcome} (husable : settings.Usable o disk place) (hmissing : disk.find? place = none)
    (hprograms : ∀ p ∈ processes, p.path ≠ "-" ∧ ∃ content, disk.read p.path = .ok content)
    (hchain : Chain settings disk processes outcomes) :
    ∃ s, Session.create o = .ok s ∧ Told settings disk disk s processes outcomes := by
  obtain ⟨s, hcreate, hblank, hturns⟩ := Session.create_of_valid (Settings.objection?_of_valid husable.options)
  exact ⟨s, hcreate, hchain.told_of_carried husable hmissing hprograms (.refl _ disk) (.created hcreate)
    (.inl ⟨hmissing, hblank, hturns⟩)⟩

/-- A program that echoes, one that is rejected and one that the limit stops, with a log beside the state file. -/
theorem Chain.told_echo_rejected_stopped :
    ∃ (settings : Settings) (disk : Disk) (processes : List Invocation) (outcomes : List Outcome) (s : Session),
      Told settings disk disk s processes outcomes ∧
      outcomes.map (fun o => (o.code, o.world.output.delivered.toList)) = [(0, [0x42]), (3, []), (5, [0x42])] := by
  -- The programs are `,+.`, `.[` and `.[>+]`.
  let settings : Settings :=
    { tapeSize := 2, maxSteps := 20, stateFile := "state", logLevel := "debug", logFile := "log" }
  let disk : Disk :=
    { workingDirectory := ["home"]
      entries := [(["home", "a"], .file [0x2c, 0x2b, 0x2e]), (["home", "b"], .file [0x2e, 0x5b]),
        (["home", "c"], .file [0x2e, 0x5b, 0x3e, 0x2b, 0x5d])] }
  let processes : List Invocation :=
    [⟨"a", .plain { data := [0x41] }, {}, .clear⟩, ⟨"b", .absent, {}, .clear⟩, ⟨"c", .absent, {}, .clear⟩]
  have hrun : ((runAll 30 settings disk processes).map fun outcomes =>
      outcomes.map fun o => (o.code, o.world.output.delivered.toList)) = some [(0, [0x42]), (3, []), (5, [0x42])] := by
    decide +kernel
  obtain ⟨outcomes, hrun, houtcomes⟩ := Option.map_eq_some_iff.mp hrun
  have husable : settings.Usable { tapeSize := 2, maxSteps := 20 } disk ["home", "state"] :=
    ⟨by decide +kernel, ⟨Log.Level.debug, by decide +kernel⟩, by decide +kernel,
      .inr ⟨["home", "log"], by decide +kernel, by decide⟩⟩
  have hprograms : ∀ p ∈ processes, p.path ≠ "-" ∧ ∃ content, disk.read p.path = .ok content := by
    intro p hp
    simp only [processes, List.mem_cons, List.not_mem_nil, or_false] at hp
    rcases hp with rfl | rfl | rfl
    · exact ⟨by decide, [0x2c, 0x2b, 0x2e], by decide +kernel⟩
    · exact ⟨by decide, [0x2e, 0x5b], by decide +kernel⟩
    · exact ⟨by decide, [0x2e, 0x5b, 0x3e, 0x2b, 0x5d], by decide +kernel⟩
  obtain ⟨s, -, htold⟩ := Chain.told husable (by decide +kernel) hprograms (.of_runAll hrun)
  exact ⟨settings, disk, processes, outcomes, s, htold, houtcomes⟩

end TapeMachine.Command
