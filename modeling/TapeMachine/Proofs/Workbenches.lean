import TapeMachine.Command.Workbench
import TapeMachine.Proofs.Files
import TapeMachine.Proofs.Resumption
import TapeMachine.Proofs.SnapshotDocument

/-! Starting and closing a workbench.

A command that starts opens its log and takes over the tape that is saved for it. If the state file carries a session
(`Command.Carried`), the command goes on with a session that differs from it at most in what no turn looks at
(`Session.Like`): a snapshot is read back from its document, and restoring it gives the store back. Nothing of the input
is read for that, and nothing depends on the streams (`Workbench.start_onStreams`). A command that closes saves the
tape. On the way no file is written but the log and the state file (`World.Follows`). -/
namespace TapeMachine

theorem Word.fits_wrap (i : Int) : fits (wrap i) = true := by
  have hleast := Int.le_bmod (x := i) (m := Nat.pow 2 64) (by decide)
  have hmost := Int.bmod_lt (x := i) (m := Nat.pow 2 64) (by decide)
  rw [show (Nat.pow 2 64 : Nat) = 18446744073709551616 from rfl] at hleast hmost
  rw [fits_iff, wrap, show (Nat.pow 2 64 : Nat) = 18446744073709551616 from rfl]
  omega

namespace Session

/-! ### What a turn does not look at -/

/-- Two sessions that differ at most in the stack that the last turn has left and in the records they keep. -/
structure Like (s t : Session) : Prop where
  options : t.options = s.options
  store : t.store = s.store
  input : t.input = s.input
  sink : t.sink = s.sink
  turns : t.turns = s.turns

/-- Two turns that differ at most in their records, on sessions that are like. -/
structure TurnsLike (a b : Turn) : Prop where
  result : b.result = a.result
  fault : b.fault = a.fault
  signal : b.signal = a.signal
  session : a.session.Like b.session

theorem Like.snapshot {s t : Session} (h : s.Like t) : t.snapshot = s.snapshot :=
  snapshot_congr h.options h.store h.turns

theorem Like.symm {s t : Session} (h : s.Like t) : t.Like s :=
  ⟨h.options.symm, h.store.symm, h.input.symm, h.sink.symm, h.turns.symm⟩

theorem Like.turn {s t : Session} (h : s.Like t) {fuel : Nat} {signal : Signal} {source : Program} {a : Turn}
    (hturn : s.turn fuel signal source = some a) :
    ∃ b, t.turn fuel signal source = some b ∧ TurnsLike a b := by
  obtain ⟨options, store, input, sink, turns, loops, threshold⟩ := s
  obtain ⟨options', store', input', sink', turns', loops', threshold'⟩ := t
  obtain ⟨hoptions, hstore, hinput, hsink, hturns⟩ := h
  obtain rfl : options' = options := hoptions
  obtain rfl : store' = store := hstore
  obtain rfl : input' = input := hinput
  obtain rfl : sink' = sink := hsink
  obtain rfl : turns' = turns := hturns
  unfold Session.turn at hturn ⊢
  cases hresolve : Brackets.resolve source with
  | error cause =>
    simp only [hresolve] at hturn ⊢
    obtain rfl := Option.some.inj hturn
    exact ⟨_, rfl, rfl, rfl, rfl, rfl, rfl, rfl, rfl, rfl⟩
  | ok jumps =>
    simp only [hresolve, machine, task, count, Stack.clear] at hturn ⊢
    generalize Machine.launch _ fuel _ = p at hturn ⊢
    cases p with
    | none => cases hturn
    | some halt =>
      obtain rfl := Option.some.inj hturn
      exact ⟨_, rfl, rfl, rfl, rfl, rfl, rfl, rfl, rfl, rfl⟩

/-- A session that has a sink keeps one. -/
theorem sink_of_turn {s : Session} {sink : Sink} (hsink : s.sink = some sink) {fuel : Nat} {signal : Signal}
    {source : Program} {t : Turn} (hturn : s.turn fuel signal source = some t) :
    ∃ after, t.session.sink = some after := by
  have hself : s.Alike s := ⟨rfl, rfl, .refl s.input, Sink.Alike.refl? s.sink⟩
  have halike := hself.turn fuel signal source
  rw [hturn] at halike
  cases halike with
  | some halike =>
    have hdelivered := halike.delivered
    rw [hsink] at hdelivered
    generalize t.session.sink = after at hdelivered
    cases hdelivered with
    | some => exact ⟨_, rfl⟩

/-! ### Taking over a snapshot leaves the streams alone -/

theorem restore_streams (s : Session) (snap : Snapshot) (i : Input) (k : Option Sink) :
    { s with input := i, sink := k }.restore snap
      = (s.restore snap).map fun t => { t with input := i, sink := k } := by
  have hobjection := @objection?_congr s { s with input := i, sink := k } rfl snap
  simp only [restore, hobjection]
  cases s.objection? snap with
  | none => rfl
  | some cause => rfl

/-! ### Snapshots that can be stored -/

theorem fits_turns {s : Session} {fuel : Nat} {signal : Signal} {source : Program} {t : Turn}
    (hturn : s.turn fuel signal source = some t) : Word.fits t.session.turns = true := by
  rw [turns_of_turn hturn]
  exact Word.fits_wrap _

/-- The snapshot of a well-formed session can be stored. -/
theorem WellFormed.isStorable {o : Options} {s : Session} (h : WellFormed o s) (hturns : Word.fits s.turns = true) :
    s.snapshot.IsStorable := by
  obtain ⟨-, hlong, hwide, hknown, -⟩ := Options.bounds_of_objection? h.valid
  have hpointer := h.tape.pointer
  have hsize := h.size
  have hwidth := h.width
  have hlimit : o.tapeSize ≤ 16777216 := hlong
  have hfits {i : Int} (hlow : 0 ≤ i) (hhigh : i ≤ 16777216) : Word.fits i = true :=
    Word.fits_iff.mpr ⟨by omega, by omega⟩
  have hword : Nat.pow 2 s.store.width ≤ Nat.pow 2 16 := Nat.pow_le_pow_right (by decide) (by omega)
  refine ⟨?_, ?_, ⟨_, hknown, by rw [← h.options]; rfl⟩, ?_, hturns, ?_, ?_, ?_⟩
  · show Word.fits (s.store.size : Int) = true
    exact hfits (by omega) (by omega)
  · show Word.fits (s.store.width : Int) = true
    exact hfits (by omega) (by omega)
  · show Word.fits s.store.tape.pointer = true
    exact hfits (by omega) (by omega)
  · refine List.pairwise_map.mpr ?_
    exact s.store.tape.ascending_nonzero.imp fun hlt => Int.ofNat_lt.mpr hlt
  · intro cell hcell
    obtain ⟨hlow, hhigh, -⟩ := mem_snapshot_cells hcell
    exact hfits hlow (by omega)
  · intro cell hcell
    obtain ⟨-, -, hvalue⟩ := mem_snapshot_cells hcell
    exact Nat.le_trans (Nat.le_of_lt hvalue) (Nat.le_trans hword (by decide))

end Session

namespace Command

/-! ### Notes -/

/-- A world after notes: files at places in `own` may have been written and messages told, all else is as it was. -/
structure World.Follows (own : Place → Prop) (w w' : World) : Prop where
  disk : w.disk.Follows own w'.disk
  input : w'.input = w.input
  output : w'.output = w.output
  signal : w'.signal = w.signal
  logFailure : w'.logFailure = w.logFailure

/-- The log is kept at a place in `own`, or nowhere. -/
def Logbook.KeptIn (own : Place → Prop) (file : String) (disk : Disk) : Prop :=
  file = "" ∨ ∃ place, disk.target file = .ok place ∧ own place

theorem Logbook.KeptIn.follows {own other : Place → Prop} {file : String} {d d' : Disk} (h : KeptIn own file d)
    (hd : d.Follows other d') : KeptIn own file d' :=
  h.imp_right fun ⟨place, htarget, hown⟩ => ⟨place, hd.target htarget, hown⟩

namespace World
variable {own : Place → Prop} {w w' w'' : World} {book : Logbook}

theorem Follows.refl (own : Place → Prop) (w : World) : Follows own w w := ⟨.refl own w.disk, rfl, rfl, rfl, rfl⟩

theorem Follows.trans (h : Follows own w w') (h' : Follows own w' w'') : Follows own w w'' :=
  ⟨h.disk.trans h'.disk, h'.input.trans h.input, h'.output.trans h.output, h'.signal.trans h.signal,
    h'.logFailure.trans h.logFailure⟩

theorem follows_note (hbook : Logbook.KeptIn own book.file w.disk) (record : Log.Record) :
    Follows own w (w.note book record) := by
  unfold note
  by_cases hfile : book.file = ""
  · simp only [hfile, if_true]
    exact ⟨.refl own w.disk, rfl, rfl, rfl, rfl⟩
  · simp only [hfile, if_false]
    split
    · next disk happend =>
      refine ⟨.append happend fun place htarget => ?_, rfl, rfl, rfl, rfl⟩
      obtain ⟨place', htarget', hown⟩ := hbook.resolve_left hfile
      obtain rfl := Except.ok.inj (htarget.symm.trans htarget')
      exact hown
    · exact ⟨.refl own w.disk, rfl, rfl, rfl, rfl⟩

theorem follows_noteAll (hbook : Logbook.KeptIn own book.file w.disk) (records : List Log.Record) :
    Follows own w (w.noteAll book records) := by
  unfold noteAll
  induction Log.admitted (some book.threshold) records generalizing w with
  | nil => exact .refl own w
  | cons record rest ih =>
    have hnote := follows_note hbook record
    exact hnote.trans (ih (hbook.follows hnote.disk))

theorem note_input (w : World) (book : Logbook) (record : Log.Record) (i : Input) :
    { w with input := i }.note book record = { w.note book record with input := i } := by
  simp only [note, tell]
  split
  · rfl
  · split <;> rfl

theorem noteAll_input (w : World) (book : Logbook) (records : List Log.Record) (i : Input) :
    { w with input := i }.noteAll book records = { w.noteAll book records with input := i } := by
  unfold noteAll
  induction Log.admitted (some book.threshold) records generalizing w with
  | nil => rfl
  | cons record rest ih =>
    rw [List.foldl_cons, List.foldl_cons, note_input]
    exact ih _

theorem logFailure_noteAll (w : World) (book : Logbook) (records : List Log.Record) :
    (w.noteAll book records).logFailure = w.logFailure := by
  unfold noteAll
  induction Log.admitted (some book.threshold) records generalizing w with
  | nil => rfl
  | cons record rest ih =>
    rw [List.foldl_cons, ih]
    simp only [note, tell]
    split
    · rfl
    · split <;> rfl

theorem finish_keeps (w : World) (first second : Option Fault) :
    (w.finish first second).world.disk = w.disk ∧ (w.finish first second).world.input = w.input ∧
      (w.finish first second).world.output = w.output := by
  cases first with
  | some fault => exact ⟨rfl, rfl, rfl⟩
  | none =>
    cases second with
    | some fault => exact ⟨rfl, rfl, rfl⟩
    | none => exact ⟨rfl, rfl, rfl⟩

theorem finish_code (w : World) (first second : Option Fault) :
    (w.finish first second).code = exitCode (first.or second) := by
  cases first with
  | some fault => rfl
  | none =>
    cases second with
    | some fault => rfl
    | none => rfl

end World

/-! ### Starting -/

/-- Settings under which a command on the disk starts, saves its tape and keeps its log: the options are valid and
the level has a name, the state file can be written, and so can the log file, which is another one. -/
structure Settings.Usable (settings : Settings) (o : Options) (disk : Disk) (place : Place) : Prop where
  options : settings.validOptions = .ok o
  level : ∃ level, Log.Level.ofText settings.logLevel = .ok level
  state : disk.target settings.stateFile = .ok place
  log : Logbook.KeptIn (· ≠ place) settings.logFile disk

theorem Settings.objection?_of_valid {settings : Settings} {o : Options} (h : settings.validOptions = .ok o) :
    o.objection? = none := by
  unfold validOptions at h
  split at h
  · cases h
  · split at h
    · cases h
    · next hfault =>
      obtain rfl := Except.ok.inj h
      exact Option.map_eq_none_iff.mp hfault

/-- The state file carries a session: it holds the snapshot, or there is none and the session is as good as new. -/
def Carried (disk : Disk) (place : Place) (s : Session) : Prop :=
  (disk.find? place = none ∧ s.store.reset = s.store ∧ s.turns = 0) ∨
    ∃ content, disk.find? place = some (.file content) ∧ Snapshot.parse content = (s.snapshot, none)

theorem Carried.follows {own : Place → Prop} {d d' : Disk} {place : Place} {s : Session} (h : Carried d place s)
    (hd : d.Follows own d') (hplace : ¬ own place) : Carried d' place s := by
  unfold Carried
  rw [hd.find? hplace]
  exact h

namespace Workbench
variable {own : Place → Prop} {settings : Settings} {w : World}

theorem openLog_spec (hlevel : ∃ level, Log.Level.ofText settings.logLevel = .ok level)
    (hlog : Logbook.KeptIn own settings.logFile w.disk) :
    ∃ book w', openLog settings w = (.ok book, w') ∧ book.file = settings.logFile ∧ w.Follows own w' ∧
      ∀ place, w.disk.target settings.logFile = .ok place → ∃ content, w'.disk.find? place = some (.file content) := by
  obtain ⟨level, hlevel⟩ := hlevel
  unfold openLog Logbook.start
  by_cases hfile : settings.logFile = ""
  · simp only [hlevel, hfile, if_true]
    exact ⟨_, _, rfl, rfl, .refl own w, fun place htarget => absurd rfl (Disk.ne_empty_of_target htarget)⟩
  · obtain ⟨place, htarget, hown⟩ := hlog.resolve_left hfile
    have happend := Disk.append_of_target htarget []
    simp only [hlevel, hfile, if_false, happend]
    refine ⟨_, _, rfl, rfl, ⟨.append happend fun place' htarget' => ?_, rfl, rfl, rfl, rfl⟩,
      fun place' htarget' => ?_⟩
    · obtain rfl := Except.ok.inj (htarget.symm.trans htarget')
      exact hown
    · obtain rfl := Except.ok.inj (htarget.symm.trans htarget')
      exact ⟨_, Disk.find?_put ..⟩

/-- What is saved for a session is its snapshot, or nothing. -/
theorem savedState_of_carried {disk : Disk} {file : String} {place : Place} {s : Session}
    (hfile : disk.target file = .ok place) (h : Carried disk place s) :
    (savedState disk file = .ok none ∧ s.store.reset = s.store ∧ s.turns = 0) ∨
      savedState disk file = .ok (some s.snapshot) := by
  rcases h with ⟨hmissing, hnew⟩ | ⟨content, hfind, hparse⟩
  · refine .inl ⟨?_, hnew⟩
    rw [savedState, Disk.read_of_missing hfile hmissing]
    rfl
  · obtain ⟨hlocate, -, hname⟩ := Disk.target_eq_ok_iff.mp hfile
    refine .inr ?_
    rw [savedState, Disk.read_eq_ok_iff.mpr ⟨place, hlocate, hfind, hname⟩]
    simp only [hparse]

/-- A session that is carried is taken over by a new one made from the same options. -/
theorem load_spec {bench : Workbench} {place : Place} {o : Options} {s : Session} (hs : s.WellFormed o)
    (hoptions : bench.session.options = o) (hstore : bench.session.store = s.store.reset)
    (hturns : bench.session.turns = 0) (hfile : w.disk.target bench.stateFile = .ok place)
    (hcarried : Carried w.disk place s) (hlog : Logbook.KeptIn own bench.book.file w.disk) :
    ∃ session w', bench.load w = (.ok { bench with session }, w') ∧ w.Follows own w' ∧
      Session.Like { s with input := bench.session.input, sink := bench.session.sink } session := by
  unfold load
  rw [if_neg (Disk.ne_empty_of_target hfile)]
  rcases savedState_of_carried hfile hcarried with ⟨hsaved, hnew, hzero⟩ | hsaved
  · simp only [hsaved]
    refine ⟨_, _, rfl, World.follows_noteAll hlog _, hoptions.trans hs.options.symm, ?_, rfl, rfl, ?_⟩
    · exact hstore.trans hnew
    · exact hturns.trans hzero.symm
  · have hwidth : bench.session.store.width = s.store.width := by
      rw [hstore]
      rfl
    have hsize : bench.session.store.size = s.store.size := by
      rw [hstore]
      exact Array.size_replicate
    simp only [hsaved, Session.restore_snapshot hwidth hsize hs.tape.pointer]
    exact ⟨_, _, rfl, World.follows_noteAll hlog _, hoptions.trans hs.options.symm, rfl, rfl, rfl, rfl⟩

/-- A command starts with the session that the state file carries, on its own streams. -/
theorem start_spec {o : Options} {place : Place} {s : Session} (hs : s.WellFormed o)
    (husable : settings.Usable o w.disk place) (hcarried : Carried w.disk place s) (hstate : ¬ own place)
    (hlog : Logbook.KeptIn own settings.logFile w.disk) (input : Input) (sink : Sink) :
    ∃ bench w', start settings w input sink = (.ok bench, w') ∧ w.Follows own w' ∧
      bench.stateFile = settings.stateFile ∧ bench.book.file = settings.logFile ∧
      Session.Like { s with input, sink := some sink } bench.session := by
  obtain ⟨book, w₁, hopen, hbook, hopened, -⟩ := openLog_spec husable.level hlog
  obtain ⟨new, hnew, hoptions, hinput, hsink, hstore, hturns⟩ := hs.create input (some sink) (some book.threshold)
  have hlog₁ : Logbook.KeptIn own book.file w₁.disk := by
    rw [hbook]
    exact hlog.follows hopened.disk
  obtain ⟨session, w₂, hload, hloaded, hlike⟩ :=
    @load_spec own w₁ { session := new, book, stateFile := settings.stateFile, dumpState := settings.dumpState }
      place o s hs hoptions hstore hturns (hopened.disk.target husable.state)
      (hcarried.follows hopened.disk hstate) hlog₁
  have hlog₂ := hlog₁.follows hloaded.disk
  have hcreate : create settings book input sink
      = .ok { session := new, book, stateFile := settings.stateFile, dumpState := settings.dumpState } := by
    rw [create, husable.options]
    simp only [hnew]
    rfl
  unfold start
  simp only [hopen, hcreate, hload]
  refine ⟨_, _, rfl, (hopened.trans hloaded).trans (World.follows_noteAll hlog₂ _), rfl, hbook, ?_⟩
  rw [hinput, hsink] at hlike
  exact hlike

section
variable {w' : World} {bench : Workbench} {input : Input} {sink : Sink}

/-! ### Starting on other streams -/

/-- The workbench, reading from another input. -/
def onInput (bench : Workbench) (i : Input) : Workbench := { bench with session := { bench.session with input := i } }

/-- The workbench, reading from another input and writing to another sink. -/
def onStreams (bench : Workbench) (i : Input) (k : Sink) : Workbench :=
  { bench with session := { bench.session with input := i, sink := some k } }

theorem create_onStreams (settings : Settings) (book : Logbook) (input i : Input) (sink k : Sink) :
    create settings book i k = (create settings book input sink).map (·.onStreams i k) := by
  simp only [create, Session.create]
  cases settings.validOptions with
  | error fault => rfl
  | ok options =>
    dsimp only
    cases Store.ofOptions options with
    | error fault => rfl
    | ok store => rfl

theorem load_onStreams (bench : Workbench) (w : World) (i : Input) (k : Sink) :
    (bench.onStreams i k).load w = ((bench.load w).1.map (·.onStreams i k), (bench.load w).2) := by
  simp only [load, onStreams, Session.restore_streams]
  split
  · rfl
  · cases savedState w.disk bench.stateFile with
    | error fault => rfl
    | ok saved =>
      cases saved with
      | none => rfl
      | some snapshot =>
        dsimp only
        cases bench.session.restore snapshot with
        | error fault => rfl
        | ok session => rfl

/-- A command starts alike, or fails to, whatever streams its turns are to have. -/
theorem start_onStreams (settings : Settings) (w : World) (input i : Input) (sink k : Sink) :
    start settings w i k
      = ((start settings w input sink).1.map (·.onStreams i k), (start settings w input sink).2) := by
  simp only [start]
  rcases openLog settings w with ⟨opened, w₁⟩
  cases opened with
  | error fault => rfl
  | ok book =>
    dsimp only
    rw [create_onStreams settings book input i sink k]
    cases create settings book input sink with
    | error fault => rfl
    | ok new =>
      simp only [Except.map, load_onStreams]
      rcases new.load w₁ with ⟨loaded, w₂⟩
      cases loaded with
      | error fault => rfl
      | ok bench => rfl

theorem openLog_input (settings : Settings) (w : World) (i : Input) :
    openLog settings { w with input := i }
      = ((openLog settings w).1, { (openLog settings w).2 with input := i }) := by
  simp only [openLog]
  cases Logbook.start settings.logLevel settings.logFile w.disk with
  | error fault => rfl
  | ok opened => rfl

theorem load_input (bench : Workbench) (w : World) (i : Input) :
    bench.load { w with input := i } = ((bench.load w).1, { (bench.load w).2 with input := i }) := by
  simp only [load, World.noteAll_input]
  split
  · rfl
  · cases savedState w.disk bench.stateFile with
    | error fault => rfl
    | ok saved =>
      cases saved with
      | none => rfl
      | some snapshot =>
        dsimp only
        cases bench.session.restore snapshot with
        | error fault => rfl
        | ok session => rfl

/-- The steps of a start that succeeds. -/
theorem start_cases (h : start settings w input sink = (.ok bench, w')) :
    ∃ book w₁ new w₂, openLog settings w = (.ok book, w₁) ∧ create settings book input sink = .ok new ∧
      new.load w₁ = (.ok bench, w₂) ∧ w₂.noteAll book [readyRecord bench.session.options] = w' := by
  unfold start at h
  split at h
  · cases h
  · next book w₁ hopen =>
    split at h
    · cases h
    · next new hcreate =>
      split at h
      · cases h
      · next loaded w₂ hload =>
        obtain ⟨hbench, hw⟩ := Prod.mk.inj h
        obtain rfl := Except.ok.inj hbench
        exact ⟨book, w₁, new, w₂, hopen, hcreate, hload, hw⟩

/-! ### What a start leaves -/

/-- Opening the log writes to the log only, whose place is known if there is one. -/
theorem openLog_cases {book : Logbook} (h : openLog settings w = (.ok book, w')) :
    book.file = settings.logFile ∧ Logbook.KeptIn (w.disk.target settings.logFile = .ok ·) settings.logFile w.disk ∧
      w.Follows (w.disk.target settings.logFile = .ok ·) w' ∧
      ∀ place, w.disk.target settings.logFile = .ok place → ∃ content, w'.disk.find? place = some (.file content) := by
  have hkept : (∃ level, Log.Level.ofText settings.logLevel = .ok level) ∧
      Logbook.KeptIn (w.disk.target settings.logFile = .ok ·) settings.logFile w.disk := by
    unfold openLog Logbook.start at h
    cases hlevel : Log.Level.ofText settings.logLevel with
    | error fault =>
      rw [hlevel] at h
      cases h
    | ok level =>
      refine ⟨⟨level, rfl⟩, ?_⟩
      by_cases hfile : settings.logFile = ""
      · exact .inl hfile
      · cases happend : w.disk.append settings.logFile [] with
        | error fault =>
          simp only [hlevel, hfile, if_false, happend] at h
          cases h
        | ok disk =>
          obtain ⟨place, htarget⟩ := Disk.target_of_append happend
          exact .inr ⟨place, htarget, htarget⟩
  obtain ⟨book', w'', hopen, hfile, hfollows, hmade⟩ := openLog_spec hkept.1 hkept.2
  cases hopen.symm.trans h
  exact ⟨hfile, hkept.2, hfollows, hmade⟩

theorem create_cases {book : Logbook} (h : create settings book input sink = .ok bench) :
    bench.book = book ∧ bench.stateFile = settings.stateFile ∧ bench.session.sink = some sink := by
  simp only [create, Session.create] at h
  cases hvalid : settings.validOptions with
  | error fault =>
    rw [hvalid] at h
    cases h
  | ok options =>
    rw [hvalid] at h
    dsimp only at h
    cases hstore : Store.ofOptions options with
    | error fault =>
      rw [hstore] at h
      cases h
    | ok store =>
      rw [hstore] at h
      cases h
      exact ⟨rfl, rfl, rfl⟩

theorem load_cases {own : Place → Prop} {loaded : Workbench} (h : bench.load w = (.ok loaded, w'))
    (hlog : Logbook.KeptIn own bench.book.file w.disk) :
    loaded.book = bench.book ∧ loaded.stateFile = bench.stateFile ∧ loaded.session.sink = bench.session.sink ∧
      w.Follows own w' := by
  unfold load at h
  split at h
  · cases h
    exact ⟨rfl, rfl, rfl, .refl own w⟩
  · split at h
    · cases h
    · cases h
      exact ⟨rfl, rfl, rfl, World.follows_noteAll hlog _⟩
    · next snapshot _ =>
      unfold Session.restore at h
      cases hrefused : bench.session.objection? snapshot with
      | some cause =>
        rw [hrefused] at h
        cases h
      | none =>
        rw [hrefused] at h
        cases h
        exact ⟨rfl, rfl, rfl, World.follows_noteAll hlog _⟩

/-- What is known of a command that has started. -/
structure Started (settings : Settings) (w : World) (sink : Sink) (bench : Workbench) (w' : World) : Prop where
  stateFile : bench.stateFile = settings.stateFile
  logFile : bench.book.file = settings.logFile
  sink : bench.session.sink = some sink
  log : Logbook.KeptIn (w.disk.target settings.logFile = .ok ·) settings.logFile w'.disk
  follows : w.Follows (w.disk.target settings.logFile = .ok ·) w'
  made : ∀ place, w.disk.target settings.logFile = .ok place → ∃ content, w'.disk.find? place = some (.file content)

theorem started_of_start (h : start settings w input sink = (.ok bench, w')) : Started settings w sink bench w' := by
  obtain ⟨book, w₁, new, w₂, hopen, hcreate, hload, rfl⟩ := start_cases h
  obtain ⟨hfile, hlog, hopened, hmade⟩ := openLog_cases hopen
  obtain ⟨hbook, hstate, hsink⟩ := create_cases hcreate
  have hlog₁ : Logbook.KeptIn (w.disk.target settings.logFile = .ok ·) book.file w₁.disk := by
    rw [hfile]
    exact hlog.follows hopened.disk
  obtain ⟨hbook', hstate', hsink', hloaded⟩ := load_cases hload (by rw [hbook]; exact hlog₁)
  have hnotes := World.follows_noteAll (hlog₁.follows hloaded.disk) [readyRecord bench.session.options]
  have hfollows := (hopened.trans hloaded).trans hnotes
  refine ⟨hstate'.trans hstate, by rw [hbook', hbook, hfile], hsink'.trans hsink, hlog.follows hfollows.disk, hfollows,
    fun place hplace => ?_⟩
  obtain ⟨content, hcontent⟩ := hmade place hplace
  exact (hloaded.trans hnotes).disk.file hcontent

/-- A command starts alike on every input, as it reads nothing. -/
theorem start_onInput (h : start settings w input sink = (.ok bench, w')) (i k : Input) :
    start settings { w with input := i } k sink = (.ok (bench.onInput k), { w' with input := i }) := by
  have hsame : bench.onStreams k sink = bench.onInput k := by rw [onStreams, onInput, ← (started_of_start h).sink]
  have hother := start_onStreams settings w input k sink sink
  rw [h, Except.map, hsame] at hother
  obtain ⟨book, w₁, new, w₂, hopen, hcreate, hload, hready⟩ := start_cases hother
  simp only [start, openLog_input, hopen, hcreate, load_input, hload, World.noteAll_input, hready]

end

/-! ### Closing -/

/-- Saving the tape does not change how closing the log ends. -/
theorem close_eq (bench : Workbench) (w : World) :
    bench.close w = ((bench.save w).1.or (w.closeLog bench.book), (bench.save w).2) := by
  have hkept : (bench.save w).2.logFailure = w.logFailure := by
    unfold save
    split
    · rfl
    · split
      · rfl
      · exact World.logFailure_noteAll ..
  simp only [close, World.closeLog, hkept]

/-- The tape is saved, and the log is the only other file that is written. Only closing the log can fail then. -/
theorem close_spec (bench : Workbench) {place : Place} (hfile : w.disk.target bench.stateFile = .ok place)
    (hstate : ¬ own place) (hlog : Logbook.KeptIn own bench.book.file w.disk) :
    ∃ w', bench.close w = (w.closeLog bench.book, w') ∧ w.Follows (fun p => own p ∨ p = place) w' ∧
      w'.disk.find? place = some (.file bench.session.snapshot.encode) := by
  have hput : w.disk.Follows (fun p => own p ∨ p = place)
      (w.disk.put place (.file bench.session.snapshot.encode)) :=
    .put (.of_target hfile) (.inr rfl) _
  have hnotes := World.follows_noteAll
    (w := { w with disk := w.disk.put place (.file bench.session.snapshot.encode) }) (hlog.follows hput)
    [⟨Log.Level.info, "state saved", [("file", .text bench.stateFile)]⟩]
  rw [close_eq, save, if_neg (Disk.ne_empty_of_target hfile), Disk.write_of_target hfile]
  refine ⟨_, rfl, ⟨hput.trans (hnotes.disk.mono fun _ => .inl), hnotes.input, hnotes.output, hnotes.signal,
    hnotes.logFailure⟩, ?_⟩
  rw [hnotes.disk.find? hstate]
  exact Disk.find?_put ..

end Workbench

end Command
end TapeMachine
