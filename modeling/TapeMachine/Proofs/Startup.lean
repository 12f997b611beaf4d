import TapeMachine.Command.Inspect
import TapeMachine.Command.Repl
import TapeMachine.Proofs.Workbenches

/-! Commands that cannot start.

A start takes its steps in order: the level of the log, its file, the policy for the end of the input, the options, and
the saved tape, which has to be read, understood and taken over. `Obstacle` names what can be in the way of each step,
with the fault it makes and the exit code that belongs to it, and these are all (`Workbench.start_error_iff`). Whatever
is in the way, nothing has been written by then but an empty log file, and every command ends there, in the same way. -/
namespace TapeMachine
namespace Command

/-- Opening the log succeeds and leaves the disk as `opened`. -/
def Opens (settings : Settings) (disk opened : Disk) : Prop :=
  ∃ book, Logbook.start settings.logLevel settings.logFile disk = .ok (book, opened)

/-- A start that has come to the saved tape: the log is open, the options are `o`, and there is to be a state file. -/
structure Settings.Ready (settings : Settings) (disk opened : Disk) (o : Options) : Prop where
  opens : Opens settings disk opened
  options : settings.validOptions = .ok o
  named : settings.stateFile ≠ ""

/-- What keeps a command from starting, each with the exit code and the fault that it makes. What comes earlier has
succeeded. -/
inductive Obstacle (settings : Settings) (disk : Disk) : Nat → Fault → Prop
  | level {problem : Fault} :
      Log.Level.ofText settings.logLevel = .error problem →
      Obstacle settings disk 1 (.caused .invalidOptions (.text problem.message))
  | logFile {level : Log.Level} {problem : Fault} :
      Log.Level.ofText settings.logLevel = .ok level → settings.logFile ≠ "" →
      disk.target settings.logFile = .error problem →
      Obstacle settings disk 1 (.caused .invalidOptions (.text (Fault.during "opening log file" problem).message))
  | policy {opened : Disk} {fault : Fault} :
      Opens settings disk opened → EofPolicy.ofName? settings.eof = .error fault → Obstacle settings disk 1 fault
  | options {opened : Disk} {o : Options} {cause : Cause} :
      Opens settings disk opened → settings.options = .ok o → o.objection? = some cause →
      Obstacle settings disk 1 (.caused .invalidOptions cause)
  | unreadable {opened : Disk} {o : Options} {problem : Fault} :
      settings.Ready disk opened o → opened.read settings.stateFile = .error problem →
      problem.isA .missingFile = false → Obstacle settings disk 2 (.during "reading state file" problem)
  | unparsable {opened : Disk} {o : Options} {content : List UInt8} {problem : Fault} :
      settings.Ready disk opened o → opened.read settings.stateFile = .ok content →
      (Snapshot.parse content).2 = some problem →
      Obstacle settings disk 2 (.during ("parsing state file " ++ settings.stateFile) problem)
  | refused {opened : Disk} {o : Options} {content : List UInt8} {new : Session} {cause : Cause} :
      settings.Ready disk opened o → opened.read settings.stateFile = .ok content →
      (Snapshot.parse content).2 = none → Session.create o = .ok new →
      new.objection? (Snapshot.parse content).1 = some cause →
      Obstacle settings disk 1 (.caused .invalidOptions cause)

/-! ### Exit codes -/

end Command

/-- A file that cannot be read is told with its path. -/
theorem Disk.file_of_read_error {d : Disk} {path : String} {fault : Fault} (h : d.read path = .error fault) :
    ∃ operation problem, fault = .file operation path problem := by
  unfold read at h
  split at h
  · cases h
    exact ⟨_, _, rfl⟩
  · split at h
    · cases h
      exact ⟨_, _, rfl⟩
    · cases h
      exact ⟨_, _, rfl⟩
    · split at h
      · cases h
        exact ⟨_, _, rfl⟩
      · cases h

/-- What is wrong with a document is told in words. -/
theorem Snapshot.told_of_parse {content : List UInt8} {problem : Fault} (h : (parse content).2 = some problem) :
    ∃ text, problem = .told text := by
  unfold parse at h
  split at h
  · cases h
    exact ⟨_, rfl⟩
  · cases h
  · obtain ⟨trouble, -, rfl⟩ := Option.map_eq_some_iff.mp h
    exact ⟨_, rfl⟩

theorem EofPolicy.invalid_of_ofName? {name : String} {fault : Fault} (h : ofName? name = .error fault) :
    fault = .caused .invalidOptions (.unknownPolicyName name) := by
  unfold ofName? at h
  dsimp only at h
  split at h
  · cases h
  split at h
  · cases h
  split at h
  · cases h
  · exact (Except.error.inj h).symm

namespace Command
variable {settings : Settings} {disk : Disk} {w w' : World}

theorem Obstacle.exitCode {code : Nat} {fault : Fault} (h : Obstacle settings disk code fault) :
    exitCode (some fault) = code := by
  cases h with
  | policy _ hname =>
    rw [EofPolicy.invalid_of_ofName? hname]
    rfl
  | unreadable _ hread _ =>
    obtain ⟨operation, problem, rfl⟩ := Disk.file_of_read_error hread
    rfl
  | unparsable _ _ hparse =>
    obtain ⟨text, rfl⟩ := Snapshot.told_of_parse hparse
    rfl
  | _ => rfl

/-! ### Steps that fail -/

theorem Logbook.start_error_iff {level file : String} {fault : Fault} :
    Logbook.start level file disk = .error fault ↔
      Log.Level.ofText level = .error fault ∨
        (∃ least, Log.Level.ofText level = .ok least) ∧ file ≠ "" ∧
          ∃ problem, disk.target file = .error problem ∧ .during "opening log file" problem = fault := by
  unfold Logbook.start
  cases Log.Level.ofText level with
  | error problem => simp
  | ok least =>
    by_cases hfile : file = ""
    · simp [hfile]
    · cases htarget : disk.target file with
      | error problem =>
        have happend : disk.append file [] = .error problem := by
          rw [Disk.append, htarget]
          rfl
        simp [hfile, happend]
      | ok place =>
        simp [hfile, Disk.append_of_target htarget []]

theorem Settings.validOptions_error_iff {fault : Fault} :
    settings.validOptions = .error fault ↔
      EofPolicy.ofName? settings.eof = .error fault ∨
        ∃ o cause, settings.options = .ok o ∧ o.objection? = some cause ∧ .caused .invalidOptions cause = fault := by
  unfold validOptions options
  cases EofPolicy.ofName? settings.eof with
  | error problem => simp [Except.map]
  | ok eof =>
    simp only [Except.map, Options.fault?]
    cases hobjection : Options.objection? _ with
    | none => simp [hobjection]
    | some cause => simp [hobjection]

namespace Workbench
variable {book : Logbook} {input : Input} {sink : Sink} {bench : Workbench} {fault : Fault}

/-- A workbench with the store of a new session. -/
structure IsNew (bench : Workbench) (settings : Settings) (o : Options) : Prop where
  store : ∀ new, Session.create o = .ok new → bench.session.store = new.store
  stateFile : bench.stateFile = settings.stateFile

theorem create_of_valid {o : Options} (h : settings.validOptions = .ok o) (book : Logbook) (input : Input)
    (sink : Sink) : ∃ bench, create settings book input sink = .ok bench ∧ bench.IsNew settings o := by
  obtain ⟨session, hsession, -⟩ :=
    Session.create_of_valid (Settings.objection?_of_valid h) input (some sink) (some book.threshold)
  refine ⟨{ session, book, stateFile := settings.stateFile, dumpState := settings.dumpState }, ?_, fun new hnew => ?_,
    rfl⟩
  · rw [create, h]
    simp only [hsession]
    rfl
  · unfold Session.create at hsession hnew
    cases hstore : Store.ofOptions o with
    | error fault =>
      rw [hstore] at hnew
      cases hnew
    | ok store =>
      rw [hstore] at hsession hnew
      cases hsession
      cases hnew
      rfl

theorem create_of_invalid (h : settings.validOptions = .error fault) (book : Logbook) (input : Input) (sink : Sink) :
    create settings book input sink = .error fault := by
  rw [create, h]

/-- A saved tape is not taken over if its file cannot be read, if the content is no document of a snapshot, or if the
session refuses the snapshot. -/
theorem load_error_iff :
    (bench.load w).1 = .error fault ↔ bench.stateFile ≠ "" ∧
      ((∃ problem, w.disk.read bench.stateFile = .error problem ∧ problem.isA .missingFile = false ∧
          .during "reading state file" problem = fault) ∨
        ∃ content, w.disk.read bench.stateFile = .ok content ∧
          ((∃ problem, (Snapshot.parse content).2 = some problem ∧
              .during ("parsing state file " ++ bench.stateFile) problem = fault) ∨
            (Snapshot.parse content).2 = none ∧ ∃ cause,
              bench.session.objection? (Snapshot.parse content).1 = some cause ∧
              .caused .invalidOptions cause = fault)) := by
  unfold load savedState
  by_cases hfile : bench.stateFile = ""
  · simp [hfile]
  · cases w.disk.read bench.stateFile with
    | error problem =>
      cases hmissing : problem.isA .missingFile with
      | true => simp [hfile, hmissing]
      | false => simp [hfile, hmissing]
    | ok content =>
      rcases hparse : Snapshot.parse content with ⟨snapshot, problem⟩
      cases problem with
      | some problem => simp [hfile, hparse]
      | none =>
        cases hobjection : bench.session.objection? snapshot with
        | none => simp [hfile, hparse, Session.restore, hobjection]
        | some cause => simp [hfile, hparse, Session.restore, hobjection]

/-- A tape that is not taken over leaves no trace. -/
theorem load_keeps (h : (bench.load w).1 = .error fault) : (bench.load w).2 = w := by
  unfold load at h ⊢
  split
  · rfl
  · split
    · rfl
    · simp_all
    · split
      · rfl
      · simp_all

/-! ### The start -/

theorem start_of_unopened (h : Logbook.start settings.logLevel settings.logFile w.disk = .error fault) (input : Input)
    (sink : Sink) :
    start settings w input sink = (.error (.caused .invalidOptions (.text fault.message)), w) := by
  rw [start, openLog, h]

theorem start_of_invalid {opened : Disk} (hopen : Opens settings w.disk opened)
    (h : settings.validOptions = .error fault) (input : Input) (sink : Sink) :
    start settings w input sink = (.error fault, { w with disk := opened }) := by
  obtain ⟨book, hbook⟩ := hopen
  simp only [start, openLog, hbook, create_of_invalid h]

/-- With the log open and valid options, only the saved tape is left to be in the way. -/
theorem start_of_valid {opened : Disk} {o : Options} (hopen : Opens settings w.disk opened)
    (h : settings.validOptions = .ok o) (input : Input) (sink : Sink) :
    ∃ bench : Workbench, bench.IsNew settings o ∧
      (∀ fault, (start settings w input sink).1 = .error fault ↔
        (bench.load { w with disk := opened }).1 = .error fault) ∧
      ∀ fault, (start settings w input sink).1 = .error fault →
        (start settings w input sink).2 = { w with disk := opened } := by
  obtain ⟨book, hbook⟩ := hopen
  obtain ⟨bench, hcreate, hnew⟩ := create_of_valid h book input sink
  refine ⟨bench, hnew, ?_⟩
  simp only [start, openLog, hbook, hcreate]
  have hkeeps {fault : Fault} := @load_keeps { w with disk := opened } bench fault
  generalize bench.load { w with disk := opened } = loaded at hkeeps ⊢
  obtain ⟨answer, after⟩ := loaded
  cases answer with
  | ok bench => simp
  | error problem => exact ⟨fun _ => Iff.rfl, fun _ _ => hkeeps rfl⟩

/-- An obstacle stops a start, whatever the streams are. -/
theorem start_of_obstacle {code : Nat} (h : Obstacle settings w.disk code fault) :
    ∃ opened, (opened = w.disk ∨ Opens settings w.disk opened) ∧
      ∀ input sink, start settings w input sink = (.error fault, { w with disk := opened }) := by
  -- The last three are met when the saved tape is loaded.
  have hload {opened : Disk} {o : Options} (hready : settings.Ready w.disk opened o)
      (hloads : ∀ bench : Workbench, bench.IsNew settings o → (bench.load { w with disk := opened }).1 = .error fault) :
      ∃ opened, (opened = w.disk ∨ Opens settings w.disk opened) ∧
        ∀ input sink, start settings w input sink = (.error fault, { w with disk := opened }) := by
    refine ⟨opened, .inr hready.opens, fun input sink => ?_⟩
    obtain ⟨bench, hnew, hiff, hkeeps⟩ := start_of_valid hready.opens hready.options input sink
    have hfails := (hiff fault).mpr (hloads bench hnew)
    exact Prod.ext hfails (hkeeps fault hfails)
  cases h with
  | level hlevel => exact ⟨_, .inl rfl, start_of_unopened (Logbook.start_error_iff.mpr (.inl hlevel))⟩
  | logFile hlevel hname htarget =>
    exact ⟨_, .inl rfl, start_of_unopened
      (Logbook.start_error_iff.mpr (.inr ⟨⟨_, hlevel⟩, hname, _, htarget, rfl⟩))⟩
  | policy hopen hname =>
    exact ⟨_, .inr hopen, start_of_invalid hopen (Settings.validOptions_error_iff.mpr (.inl hname))⟩
  | options hopen hoptions hobjection =>
    exact ⟨_, .inr hopen, start_of_invalid hopen
      (Settings.validOptions_error_iff.mpr (.inr ⟨_, _, hoptions, hobjection, rfl⟩))⟩
  | unreadable hready hread hmissing =>
    refine hload hready fun bench hnew => load_error_iff.mpr ?_
    rw [hnew.stateFile]
    exact ⟨hready.named, .inl ⟨_, hread, hmissing, rfl⟩⟩
  | unparsable hready hread hparse =>
    refine hload hready fun bench hnew => load_error_iff.mpr ?_
    rw [hnew.stateFile]
    exact ⟨hready.named, .inr ⟨_, hread, .inl ⟨_, hparse, rfl⟩⟩⟩
  | refused hready hread hparse hsession hobjection =>
    refine hload hready fun bench hnew => load_error_iff.mpr ?_
    have hrefused := (Session.objection?_congr (hnew.store _ hsession) _).trans hobjection
    rw [hnew.stateFile]
    exact ⟨hready.named, .inr ⟨_, hread, .inr ⟨hparse, _, hrefused, rfl⟩⟩⟩

/-- These are all the ways in which a start fails. -/
theorem start_error_iff :
    (start settings w input sink).1 = .error fault ↔ ∃ code, Obstacle settings w.disk code fault := by
  constructor
  · intro h
    cases hbook : Logbook.start settings.logLevel settings.logFile w.disk with
    | error problem =>
      rw [start_of_unopened hbook] at h
      cases h
      rcases Logbook.start_error_iff.mp hbook with hlevel | ⟨⟨least, hlevel⟩, hname, problem, htarget, rfl⟩
      · exact ⟨1, .level hlevel⟩
      · exact ⟨1, .logFile hlevel hname htarget⟩
    | ok opened =>
      have hopen : Opens settings w.disk opened.2 := ⟨opened.1, hbook⟩
      cases hvalid : settings.validOptions with
      | error problem =>
        rw [start_of_invalid hopen hvalid] at h
        cases h
        rcases Settings.validOptions_error_iff.mp hvalid with hname | ⟨o, cause, hoptions, hobjection, rfl⟩
        · exact ⟨1, .policy hopen hname⟩
        · exact ⟨1, .options hopen hoptions hobjection⟩
      | ok o =>
        obtain ⟨bench, hnew, hiff, -⟩ := start_of_valid hopen hvalid input sink
        have hload := load_error_iff.mp ((hiff fault).mp h)
        rw [hnew.stateFile] at hload
        obtain ⟨hnamed, ⟨problem, hread, hmissing, rfl⟩ | ⟨content, hread, hcontent⟩⟩ := hload
        · exact ⟨2, .unreadable ⟨hopen, hvalid, hnamed⟩ hread hmissing⟩
        · rcases hcontent with ⟨problem, hparse, rfl⟩ | ⟨hparse, cause, hobjection, rfl⟩
          · exact ⟨2, .unparsable ⟨hopen, hvalid, hnamed⟩ hread hparse⟩
          · obtain ⟨new, hsession, -⟩ := Session.create_of_valid (Settings.objection?_of_valid hvalid)
            rw [Session.objection?_congr (hnew.store new hsession)] at hobjection
            exact ⟨1, .refused ⟨hopen, hvalid, hnamed⟩ hread hparse hsession hobjection⟩
  · rintro ⟨code, hobstacle⟩
    obtain ⟨opened, -, hstart⟩ := start_of_obstacle hobstacle
    rw [hstart]

end Workbench

/-! ### The commands -/

/-- What opening the log leaves: every file that is there is as it was, and nothing else is new but the log. -/
theorem Opens.follows {opened : Disk} (h : Opens settings disk opened) :
    disk.Follows (disk.target settings.logFile = .ok ·) opened ∧
      ∀ {place content}, disk.find? place = some (.file content) → opened.find? place = some (.file content) := by
  obtain ⟨book, hbook⟩ := h
  unfold Logbook.start at hbook
  split at hbook
  · cases hbook
  · split at hbook
    · cases hbook
      exact ⟨.refl _ disk, id⟩
    · split at hbook
      · cases hbook
      · next happend =>
        cases hbook
        exact ⟨.append happend fun _ htarget => htarget, Disk.find?_append_nil happend⟩

/-- A command that has done nothing: it has not touched its streams and shows no viewer, and every file is as it was.
Only the log can be a file that was not there. -/
structure Outcome.Untouched (settings : Settings) (w : World) (o : Outcome) : Prop where
  input : o.world.input = w.input
  output : o.world.output = w.output
  signal : o.world.signal = w.signal
  viewer : o.viewer = none
  kept : ∀ path content, w.disk.read path = .ok content → o.world.disk.read path = .ok content
  others : ∀ path, (∀ place, w.disk.locate path = .ok place → w.disk.target settings.logFile ≠ .ok place) →
    ∀ content, o.world.disk.read path = .ok content ↔ w.disk.read path = .ok content

/-- **A failed start runs nothing and leaves the saved tape alone.** A start fails exactly for the obstacles named, on
all streams alike. Then all commands, whatever they are to run and to show, lead to the same outcome, without a single
step: it has the code of the obstacle, 1 or 2, tells its fault, and has done nothing. -/
theorem failed_start_untouched (settings : Settings) (w : World) :
    (∀ input sink fault, (Workbench.start settings w input sink).1 = .error fault ↔
      ∃ code, Obstacle settings w.disk code fault) ∧
    ∀ code fault, Obstacle settings w.disk code fault → ∃ o : Outcome,
      (∀ fuel path, run fuel settings path w = some o) ∧ (∀ fuel, repl fuel settings w = some o) ∧
      (∀ fuel path failure, inspect fuel settings path failure w = some o) ∧
      o.code = code ∧ (code = 1 ∨ code = 2) ∧
      o.world.messages = w.messages ++ ("Error: " ++ fault.message ++ "\n") ∧ o.Untouched settings w := by
  refine ⟨fun input sink fault => Workbench.start_error_iff, fun code fault hobstacle => ?_⟩
  obtain ⟨opened, hopened, hstart⟩ := Workbench.start_of_obstacle hobstacle
  have hkept : w.disk.Follows (w.disk.target settings.logFile = .ok ·) opened ∧
      ∀ {place content}, w.disk.find? place = some (.file content) → opened.find? place = some (.file content) := by
    rcases hopened with rfl | hopens
    · exact ⟨.refl _ _, id⟩
    · exact hopens.follows
  refine ⟨World.fail { w with disk := opened } fault, fun fuel path => ?_, fun fuel => ?_, fun fuel path failure => ?_,
    hobstacle.exitCode, ?_, rfl, rfl, rfl, rfl, rfl, fun path content hread => ?_, fun path hother content => ?_⟩
  · unfold run
    rw [hstart]
  · unfold repl
    rw [hstart]
  · unfold inspect
    rw [hstart]
  · cases hobstacle <;> decide
  · obtain ⟨place, hlocate, hfind, hname⟩ := Disk.read_eq_ok_iff.mp hread
    exact Disk.read_eq_ok_iff.mpr ⟨place, hkept.1.locate hlocate, hkept.2 hfind, hname⟩
  · exact hkept.1.read_iff hother

/-- A state file that is cut off in the middle of a document. -/
theorem failed_start_untouched_corrupt :
    ∃ (settings : Settings) (w : World) (o : Outcome), w.disk.read settings.stateFile = .ok [0x70, 0x3a, 0x20, 0x5b] ∧
      (∀ fuel path, run fuel settings path w = some o) ∧ (∀ fuel, repl fuel settings w = some o) ∧
      (∀ fuel path failure, inspect fuel settings path failure w = some o) ∧ o.code = 2 ∧ o.Untouched settings w := by
  let settings : Settings := { stateFile := "state" }
  -- The file holds `p: [`.
  let w : World :=
    { disk := { workingDirectory := ["home"], entries := [(["home", "state"], .file [0x70, 0x3a, 0x20, 0x5b])] }
      input := .absent }
  have hread : w.disk.read settings.stateFile = .ok [0x70, 0x3a, 0x20, 0x5b] := by decide +kernel
  have hlevel : Log.Level.ofText settings.logLevel = .ok Log.Level.warn := by decide +kernel
  have hopens : Opens settings w.disk w.disk := ⟨⟨Log.Level.warn, ""⟩, by rw [Logbook.start, hlevel]; rfl⟩
  have hready : settings.Ready w.disk w.disk {} := ⟨hopens, by decide +kernel, by decide⟩
  have hparse : (Snapshot.parse [0x70, 0x3a, 0x20, 0x5b]).2.isSome = true := by decide +kernel
  obtain ⟨problem, hproblem⟩ := Option.isSome_iff_exists.mp hparse
  obtain ⟨o, hrun, hrepl, hinspect, hcode, -, -, huntouched⟩ :=
    (failed_start_untouched settings w).2 _ _ (.unparsable hready hread hproblem)
  exact ⟨settings, w, o, hread, hrun, hrepl, hinspect, hcode, huntouched⟩

end Command
end TapeMachine
