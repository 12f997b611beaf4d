import TapeMachine.Prompt.Loop
import TapeMachine.Proofs.Calm
import TapeMachine.Proofs.Lines
import TapeMachine.Proofs.Sessions

/-! One cursor over lines and input.

A prompt loop that shares the buffered input of its session takes lines and the bytes of programs from one stream.
`readOut` says what that amounts to on the list of bytes itself, without buffer and reads: cut off a line, run it as a
turn on what follows, and go on with what the turn has left. A loop whose session tracks the list (`Session.Tracks`)
does the same: a turn takes from the feed what it would take from the list (`Tracks.turn`), because both give the same
answers in the same order, and so does a whole loop (`Loop.tracks`). -/
namespace TapeMachine

/-! ### The list as an input -/

/-- A source that has these bytes left, then the plain end of the input, and cancels nothing. -/
structure Source.HandsOut (s : Source) (bytes : List UInt8) : Prop where
  data : s.data = bytes
  ending : s.ending = .bare .endOfInput
  quiet : s.cancelAt = 0

theorem Source.HandsOut.readByte {s : Source} {bytes : List UInt8} (h : s.HandsOut bytes) :
    s.readByte.1 = Feed.nextAnswer bytes ∧ s.readByte.2.HandsOut bytes.tail := by
  refine ⟨?_, ?_⟩
  · cases hbytes : bytes with
    | nil =>
      obtain ⟨hnone, hending⟩ := serve_nil (s := s.skipIdle) (h.data.trans hbytes) 1
      simp only [Source.readByte, hnone, hending]
      exact congrArg Except.error h.ending
    | cons b rest =>
      obtain ⟨hfirst, -⟩ := serve_cons (s := s.skipIdle) (h.data.trans hbytes) Nat.one_pos
      simp only [Source.readByte, hfirst]
      rfl
  · rw [readByte_source]
    refine ⟨?_, h.ending, h.quiet⟩
    show s.data.drop 1 = bytes.tail
    rw [h.data, List.drop_one]

/-- The input is a feed that hands out these bytes. -/
def Input.Feeds (i : Input) (bytes : List UInt8) : Prop := ∃ f, i = .buffered f ∧ f.HandsOut bytes

namespace Input.Feeds
variable {i : Input} {bytes : List UInt8}

theorem readByte (h : i.Feeds bytes) :
    i.readByte.1 = Feed.nextAnswer bytes ∧ i.readByte.2.Feeds bytes.tail := by
  obtain ⟨f, rfl, hf⟩ := h
  obtain ⟨hanswer, hleft⟩ := hf.readByte
  exact ⟨hanswer, _, rfl, hleft⟩

theorem of_error (h : i.Feeds bytes) {fault : Fault} (herror : i.readByte.1 = .error fault) :
    i.readByte.2.Feeds bytes := by
  obtain ⟨hanswer, hleft⟩ := h.readByte
  cases bytes with
  | nil => exact hleft
  | cons b rest => cases hanswer.symm.trans herror

theorem hasCancelledSince (h : i.Feeds bytes) (calls : Nat) : i.hasCancelledSince calls = false := by
  obtain ⟨f, rfl, hf⟩ := h
  simp [Input.hasCancelledSince, source?, Source.hasCancelledSince, hf.quiet]

theorem calm (h : i.Feeds bytes) : i.Calm := by
  obtain ⟨f, rfl, hf⟩ := h
  intro s hs
  obtain rfl := Option.some.inj hs
  rw [hf.quiet]
  exact Nat.zero_le _

end Input.Feeds

/-- A feed and a list that hand out the same bytes, and the same outbox. -/
def Coupling.Streams.feedAndList : Coupling.Streams where
  input i j := ∃ bytes source, i.Feeds bytes ∧ j = .plain source ∧ source.HandsOut bytes
  outbox o p := p = o
  answer := by
    rintro i j ⟨bytes, source, hi, rfl, hj⟩
    exact hj.readByte.1.trans hi.readByte.1.symm
  left := by
    rintro i j ⟨bytes, source, hi, rfl, hj⟩
    exact ⟨bytes.tail, _, hi.readByte.2, rfl, hj.readByte.2⟩
  hears := by
    rintro i j ⟨bytes, source, hi, rfl, hj⟩
    have hlist : (Input.plain source).readByte.2.hasCancelledSince (Input.plain source).calls = false := by
      show source.readByte.2.hasCancelledSince _ = false
      simp [Source.hasCancelledSince, hj.readByte.2.quiet]
    rw [hi.readByte.2.hasCancelledSince, hlist]
    exact ⟨rfl, fun _ => rfl⟩
  failure := by
    rintro o p rfl
    rfl
  put b := ⟨fun h => by rw [h], fun h => ⟨by rw [h], fun hlead => absurd rfl hlead⟩⟩
  flush := ⟨fun h => by rw [h], fun h => ⟨by rw [h], fun hlead => absurd rfl hlead⟩⟩

namespace Machine
variable {w : Nat} {task : Task} {m m' : Machine w} {bytes : List UInt8}

/-- Every byte that is read is counted, so what is left to a machine is told by its count. -/
theorem feeds_of_running (h : m.input.Feeds (bytes.drop m.read)) (hstep : m.step task = .running m') :
    m'.input.Feeds (bytes.drop m'.read) := by
  cases advances_of_running hstep with
  | read =>
    have hleft := h.readByte.2
    rw [List.tail_drop] at hleft
    exact hleft
  | ended _ _ _ hanswer => exact h.of_error hanswer
  | _ => exact h

theorem feeds_of_stopped {reason : StopReason} {fault : Option Fault} (h : m.input.Feeds (bytes.drop m.read))
    (hstop : m.step task = .stopped m' reason fault) : m'.input.Feeds (bytes.drop m'.read) := by
  rcases stop_cases hstop with ⟨-, hf⟩ | ⟨n, given, hgive, habort⟩
  · rw [machine_of_finish hf]
    exact h
  · rw [(machine_of_abort habort).1]
    cases hgive with
    | reading _ _ _ hanswer => exact h.of_error hanswer
    | _ => exact h

/-- A task on a feed leaves behind the bytes that it has counted, and nothing cancels it. -/
theorem Halts.feeds {tape : Tape w} {input : Input} {sink : Option Sink} {h : Halt w}
    (hhalts : Halts task (fresh tape input sink .clear) h) (hfeed : input.Feeds bytes)
    (hcalm : ∀ k, sink = some k → k.cancelAt ≤ k.writes.size) :
    h.machine.input.Feeds (bytes.drop h.machine.read) ∧ h.machine.Calm := by
  obtain ⟨visited, hafter⟩ := halts_iff.mp hhalts
  cases hafter with
  | cancelled hraised => cases hraised
  | stopped _ hrun hstop =>
    have hlast := hrun.invariant (P := fun _ n => n.input.Feeds (bytes.drop n.read)) hfeed
      (fun _ _ _ hn hs => feeds_of_running hn hs)
    have hquiet := Calm.run (m := fresh tape input sink .clear) ⟨rfl, hfeed.calm, hcalm⟩ hrun
    exact ⟨feeds_of_stopped hlast hstop, hquiet.stopped hstop⟩

end Machine

/-! ### Turns -/

namespace Session

/-- The session is where the reference session is, with these bytes left in its feed. -/
structure Tracks (s reference : Session) (bytes : List UInt8) : Prop where
  options : s.options = reference.options
  store : s.store = reference.store
  sink : s.sink = reference.sink
  turns : s.turns = reference.turns
  feed : s.input.Feeds bytes
  calm : ∀ k, s.sink = some k → k.cancelAt ≤ k.writes.size

theorem Tracks.turn {s reference : Session} {bytes : List UInt8} (h : s.Tracks reference bytes) (fuel : Nat)
    (source : Program) :
    Option.Rel (fun a b => a.signal = .clear ∧ a.session.Tracks b.session (bytes.drop b.result.read))
      (s.turn fuel .clear source) ({ reference with input := .plain { data := bytes } }.turn fuel .clear source) := by
  obtain ⟨options, store, input, sink, turns, loops, threshold⟩ := s
  obtain ⟨options', store', input', sink', turns', loops', threshold'⟩ := reference
  obtain ⟨hoptions, hstore, hsink, hturns, hfeed, hcalm⟩ := h
  obtain rfl : options = options' := hoptions
  obtain rfl : store = store' := hstore
  obtain rfl : sink = sink' := hsink
  obtain rfl : turns = turns' := hturns
  unfold Session.turn
  cases Brackets.resolve source with
  | error cause => exact .some ⟨rfl, rfl, rfl, rfl, rfl, hfeed, hcalm⟩
  | ok jumps =>
    have hcoupled : Machine.Coupled (Coupling.Streams.feedAndList.onTape store.width)
        (Machine.fresh store.tape input sink .clear)
        (Machine.fresh store.tape (.plain { data := bytes }) sink .clear) :=
      ⟨rfl, ⟨bytes, _, hfeed, rfl, rfl, rfl, rfl⟩, rfl, rfl, fun hlead => absurd rfl hlead, rfl, rfl, rfl, rfl, rfl⟩
    have hlaunch := hcoupled.launch (fun htape => by rw [htape])
      (.refl { program := source, jumps, eof := options.eof, limit := options.stepLimit? }) fuel
    have hleft {halt : Machine.Halt store.width} (hhalt : (Machine.fresh store.tape input sink .clear).launch
        { program := source, jumps, eof := options.eof, limit := options.stepLimit? } fuel = some halt) :=
      Machine.Halts.feeds ⟨fuel, hhalt⟩ hfeed hcalm
    simp only [machine, task, count, Stack.clear]
    unfold Machine.fresh at hlaunch hleft
    generalize Machine.launch _ fuel _ = p at hlaunch hleft ⊢
    generalize Machine.launch _ fuel _ = q at hlaunch ⊢
    cases hlaunch with
    | none => exact .none
    | @some a b hstop =>
      obtain ⟨hrest, hquiet⟩ := hleft rfl
      have hmachine := hstop.machine
      have htape : b.machine.tape = a.machine.tape := hmachine.tape
      have houtbox : b.machine.outbox = a.machine.outbox := hmachine.outbox
      have hread : b.machine.read = a.machine.read := hmachine.read
      refine .some ⟨hquiet.signal, rfl, ?_, ?_, rfl, ?_, hquiet.outbox⟩
      · exact congrArg (Store.mk _) htape.symm
      · exact congrArg Outbox.sink houtbox.symm
      · show a.machine.input.Feeds (bytes.drop b.machine.read)
        rw [hread]
        exact hrest

end Session

/-! ### The list read out -/

namespace Prompt

/-- What reading a list of bytes out leads to. -/
structure Reading where
  session : Session
  /-- The lines, with their endings, each with the bytes that its turn has taken. -/
  used : List (List UInt8 × List UInt8) := []
  left : List UInt8

/-- The bytes used, in the order of their use. -/
def Reading.usedBytes (r : Reading) : List UInt8 := r.used.flatMap fun u => u.1 ++ u.2

/-- The reading with a line before it. -/
def Reading.after (line taken : List UInt8) (r : Reading) : Reading := { r with used := (line, taken) :: r.used }

/-- Reads a list of bytes out. Where none are left it stops. Otherwise the bytes up to and with the next newline are a
line, or all that are left. If there is nothing in it but its ending it stops; else the line is run as a turn whose
input instructions take the bytes that follow, one each. It goes on with what the turn has left. -/
def readOut (fuel : Nat) (s : Session) (bytes : List UInt8) : Option Reading :=
  if bytes = [] then some { session := s, left := [] }
  else
    let line := (throughMark 10 bytes).1
    let rest := (throughMark 10 bytes).2
    if lineText line = [] then some { session := s, used := [(line, [])], left := rest }
    else
      match { s with input := .plain { data := rest } }.turn fuel .clear (lineText line).toArray with
      | none => none
      | some t =>
        (readOut fuel t.session (rest.drop t.result.read)).map (.after line (rest.take t.result.read))
termination_by bytes.length
decreasing_by
  rename_i hbytes _
  rw [List.length_drop]
  exact Nat.lt_of_le_of_lt (Nat.sub_le ..) (length_throughMark_lt 10 hbytes)

/-- Every byte is used at most once, in order, or left. -/
theorem usedBytes_readOut {fuel : Nat} {s : Session} {bytes : List UInt8} {r : Reading}
    (h : readOut fuel s bytes = some r) : r.usedBytes ++ r.left = bytes := by
  fun_induction readOut fuel s bytes generalizing r with
  | case1 s =>
    obtain rfl := Option.some.inj h
    rfl
  | case2 s bytes hbytes line rest =>
    obtain rfl := Option.some.inj h
    simp only [Reading.usedBytes, List.flatMap_singleton, List.append_nil]
    exact throughMark_append 10 bytes
  | case3 => cases h
  | case4 s bytes hbytes line rest hcommand t hturn =>
    rename_i ih
    obtain ⟨later, hlater, rfl⟩ := Option.map_eq_some_iff.mp h
    have hrest := ih hlater
    rw [Reading.usedBytes] at hrest
    simp only [Reading.usedBytes, Reading.after, List.flatMap_cons, List.append_assoc, hrest, List.take_append_drop]
    exact throughMark_append 10 bytes

/-! ### The loop -/

/-- The loop is where the reference session is, takes its lines from the session's own feed, and nothing has cancelled
it. -/
structure Progress.Tracks (p : Progress) (reference : Session) (bytes : List UInt8) : Prop where
  session : p.session.Tracks reference bytes
  source : ∃ written, p.source = .shared written
  signal : p.signal = .clear

/-- A loop that has ended well where the reading has. -/
structure Ended.Tracks (e : Ended) (r : Reading) : Prop where
  session : e.session.Tracks r.session r.left
  signal : e.signal = .clear
  fault : e.fault = none

theorem Progress.Tracks.tell {p : Progress} {reference : Session} {bytes : List UInt8} (h : p.Tracks reference bytes)
    (events : List Event) : (Loop.tell p events).Tracks reference bytes := ⟨h.session, h.source, h.signal⟩

namespace Loop
variable {l : Loop} {p : Progress} {reference : Session} {bytes : List UInt8}

theorem consult_tracks (l : Loop) (h : p.Tracks reference bytes) :
    (l.consult p).2.Tracks reference (throughMark 10 bytes).2 ∧
      (l.consult p).1 = if bytes = [] then .error (.bare .endOfInput)
        else .ok (lineText (throughMark 10 bytes).1) := by
  obtain ⟨session, source, signal, events⟩ := p
  obtain ⟨hsession, ⟨written, hsource⟩, hsignal⟩ := h
  obtain rfl : source = .shared written := hsource
  obtain rfl : signal = .clear := hsignal
  obtain ⟨f, hinput, hf⟩ := hsession.feed
  obtain ⟨hleft, hanswer⟩ := hf.nextLine
  have hinput : session.input = .buffered f := hinput
  have hquiet : (Input.buffered (nextLine f).2).hasCancelledSince session.input.calls = false :=
    Input.Feeds.hasCancelledSince ⟨_, rfl, hleft⟩ _
  simp only [consult, Prompter.ask, hinput, LineReader.ask] at hquiet ⊢
  refine ⟨Progress.Tracks.tell ⟨?_, ⟨_, rfl⟩, ?_⟩ _, hanswer⟩
  · exact { hsession with feed := ⟨_, rfl, hleft⟩ }
  · simp only [hquiet, Bool.and_false]
    rfl

section
variable (hbefore : ∀ turn, l.turnSignal turn .clear = .clear)
  (hafter : ∀ t, t.signal = .clear → l.signalAfter t .clear = .clear)
include hbefore hafter

theorem obey_tracks (h : p.Tracks reference bytes) (fuel : Nat) (line : List UInt8) :
    (l.obey fuel p line = .stuck ∧
      { reference with input := .plain { data := bytes } }.turn fuel .clear line.toArray = none) ∨
    ∃ p' t, l.obey fuel p line = .again p' ∧
      { reference with input := .plain { data := bytes } }.turn fuel .clear line.toArray = some t ∧
      p'.Tracks t.session (bytes.drop t.result.read) := by
  have hturn := h.session.turn fuel line.toArray
  simp only [obey, h.signal, hbefore]
  generalize p.session.turn fuel .clear line.toArray = a at hturn ⊢
  generalize Session.turn _ fuel .clear line.toArray = b at hturn ⊢
  cases hturn with
  | none => exact .inl ⟨rfl, rfl⟩
  | @some a b hrel =>
    obtain ⟨hclear, htracks⟩ := hrel
    have hnext : { p with session := a.session, signal := l.signalAfter a .clear : Progress }.Tracks b.session
        (bytes.drop b.result.read) := ⟨htracks, h.source, hafter a hclear⟩
    exact .inr ⟨_, b, rfl, rfl, hnext.tell _⟩

/-- **The loop reads the list out.** Each round takes one line, or ends; as every line has a byte, there are rounds
enough. -/
theorem repeatRounds_tracks (h : p.Tracks reference bytes) (fuel : Nat) {rounds : Nat}
    (hrounds : bytes.length < rounds) :
    Option.Rel Ended.Tracks (l.repeatRounds fuel rounds p) (readOut fuel reference bytes) := by
  induction rounds generalizing p reference bytes with
  | zero => cases hrounds
  | succ rounds ih =>
    obtain ⟨hnext, hanswer⟩ := consult_tracks l h
    rw [repeatRounds, round, h.signal, readOut]
    simp only [Signal.isRaised, Bool.false_eq_true, if_false]
    generalize l.consult p = c at hnext hanswer ⊢
    obtain ⟨answer, p'⟩ := c
    by_cases hbytes : bytes = []
    · obtain rfl : answer = _ := hanswer.trans (if_pos hbytes)
      rw [if_pos hbytes]
      rw [hbytes] at hnext
      exact .some ⟨hnext.session, hnext.signal, rfl⟩
    obtain rfl : answer = _ := hanswer.trans (if_neg hbytes)
    rw [if_neg hbytes]
    have hshorter := length_throughMark_lt 10 hbytes
    generalize hline : lineText (throughMark 10 bytes).1 = line
    cases line with
    | nil =>
      rw [if_pos rfl]
      exact .some ⟨hnext.session, hnext.signal, rfl⟩
    | cons b line =>
      rw [if_neg (List.cons_ne_nil b line)]
      rcases obey_tracks hbefore hafter hnext fuel (b :: line) with ⟨hobey, hturn⟩ | ⟨p'', t, hobey, hturn, hgoes⟩
      · simp only [hobey, hturn]
        exact .none
      · have hrest : ((throughMark 10 bytes).2.drop t.result.read).length < rounds := by
          rw [List.length_drop]
          omega
        have hlater := ih hgoes hrest
        simp only [hobey, hturn]
        generalize l.repeatRounds fuel rounds p'' = e at hlater ⊢
        generalize readOut fuel t.session _ = r at hlater ⊢
        cases hlater with
        | none => exact .none
        | some htracks => exact .some ⟨htracks.session, htracks.signal, htracks.fault⟩

theorem tracks {s : Session} (h : s.Tracks reference bytes) (fuel : Nat) (written : Option String) :
    Option.Rel Ended.Tracks (l.run fuel s (.shared written) .clear) (readOut fuel reference bytes) := by
  obtain ⟨f, hinput, hf⟩ := h.feed
  have hbound : (Prompter.shared written).bound s = bytes.length + 1 := by
    simp only [Prompter.bound, hinput, ← hf.pending, Feed.pending, List.length_append]
  have hstart : { session := s, source := .shared written, signal := .clear, events := l.greet : Progress }.Tracks
      reference bytes := ⟨h, ⟨_, rfl⟩, rfl⟩
  exact repeatRounds_tracks hbefore hafter hstart fuel (by omega)

end

end Loop
end Prompt
end TapeMachine
