import TapeMachine.Proofs.Calm
import TapeMachine.Proofs.Reporting
import TapeMachine.Proofs.Sessions

/-! Input however it is delivered.

A source that is read byte by byte is, to a machine, the bytes it has left and the ending behind them
(`Input.Yields`): how the bytes are spread over reads, how many empty reads come in between, and whether the ending
comes with the last byte or after it, cannot be told. An input that is absent is one without bytes that ends. So two
sessions on sources with the same bytes and the same ending play every script alike, but for the sources themselves
(`play_congr`).

Throughout the turns of a session the bytes left are those that the counts of bytes read leave (`Machine.Drawn`). No
byte is taken but by an input instruction, each takes the next one, and where none is left it meets the ending
(`Machine.ReadsNext`). -/
namespace TapeMachine

/-! ### Bytes and an ending -/

/-- What a read gets of bytes that end with `ending`: the first of them, or the ending. -/
def Source.firstOf (ending : Fault) : List UInt8 → Except Fault UInt8
  | [] => .error ending
  | b :: _ => .ok b

/-- The input hands out these bytes, one at each read, and then reports `ending` for ever. No read cancels the turn. -/
inductive Input.Yields : List UInt8 → Fault → Input → Prop
  | absent : Yields [] (.bare .endOfInput) .absent
  | plain {s : Source} : s.cancelAt ≤ s.calls → Yields s.data s.ending (.plain s)

namespace Input.Yields
variable {bytes : List UInt8} {ending : Fault} {i : Input}

theorem calm (h : i.Yields bytes ending) : i.Calm := by
  cases h with
  | absent => exact fun s hs => by cases hs
  | plain hcalm => exact fun s hs => by cases hs; exact hcalm

theorem readByte (h : i.Yields bytes ending) :
    i.readByte.1 = Source.firstOf ending bytes ∧ i.readByte.2.Yields bytes.tail ending := by
  cases h with
  | absent => exact ⟨rfl, .absent⟩
  | @plain s hcalm =>
    have hafter : s.readByte.2.data = s.data.tail ∧ s.readByte.2.ending = s.ending ∧
        s.readByte.2.cancelAt ≤ s.readByte.2.calls := by
      rw [s.readByte_source]
      exact ⟨List.drop_one, rfl, show s.cancelAt ≤ s.calls + s.idle + 1 by omega⟩
    refine ⟨?_, ?_⟩
    · show s.readByte.1 = _
      rw [s.readByte_answer]
      cases s.data <;> rfl
    · rw [← hafter.1, ← hafter.2.1]
      exact .plain hafter.2.2

theorem not_cancelled (h : i.Yields bytes ending) : i.readByte.2.hasCancelledSince i.calls = false :=
  h.calm.readByte.2

end Input.Yields

/-- Inputs with the same bytes and the same ending, and the same outbox. -/
def Coupling.Streams.sameBytes : Coupling.Streams where
  input i j := ∃ bytes ending, i.Yields bytes ending ∧ j.Yields bytes ending
  outbox o p := p = o
  answer := by
    rintro i j ⟨bytes, ending, hi, hj⟩
    exact hj.readByte.1.trans hi.readByte.1.symm
  left := by
    rintro i j ⟨bytes, ending, hi, hj⟩
    exact ⟨bytes.tail, ending, hi.readByte.2, hj.readByte.2⟩
  hears := by
    rintro i j ⟨bytes, ending, hi, hj⟩
    rw [hi.not_cancelled, hj.not_cancelled]
    exact ⟨rfl, fun _ => rfl⟩
  failure := @Outbox.failure_same
  put := Outbox.keeps_same_put
  flush := Outbox.keeps_same Outbox.flush

/-! ### Turns that are played alike -/

/-- Halts of machines that differ in their inputs only differ in them only. -/
theorem Machine.StopsAlike.eq_withInput {w : Nat} {a b : Machine.Halt w}
    (h : Machine.StopsAlike (Coupling.Streams.sameBytes.onTape w) a b) :
    b = { a with machine := { a.machine with input := b.machine.input } } := by
  obtain ⟨⟨tape, input, outbox, signal, ip, loops, steps, read, written⟩, reason, fault⟩ := a
  obtain ⟨⟨tape', input', outbox', signal', ip', loops', steps', read', written'⟩, reason', fault'⟩ := b
  obtain ⟨⟨htape, -, houtbox, hsignal, -, hip, hloops, hsteps, hread, hwritten⟩, hreason, hfault⟩ := h
  obtain rfl : tape' = tape := htape
  obtain rfl : outbox' = outbox := houtbox
  obtain rfl : signal' = signal := hsignal
  obtain rfl : ip' = ip := hip
  obtain rfl : steps' = steps := hsteps
  obtain rfl : read' = read := hread
  obtain rfl : written' = written := hwritten
  obtain rfl : reason' = reason := hreason
  obtain rfl : fault' = fault := by
    rw [show fault' = fault.map (·.displaced {}) from hfault, funext Fault.displaced_none, Option.map_id']
  obtain rfl : loops' = loops := by
    have hitems : loops'.items = loops.items.map (· + 0) := hloops
    cases loops
    cases loops'
    simpa using hitems
  rfl

/-- The turn without the input of the session. -/
def Turn.unplugged (t : Turn) : Turn := { t with session := { t.session with input := .absent } }

namespace Session

/-- The turns of a script one after the other, as far as each ends within the fuel. -/
def play (fuel : Nat) (s : Session) : List (Signal × Program) → List Turn
  | [] => []
  | (signal, source) :: rest =>
    match s.turn fuel signal source with
    | none => []
    | some t => t :: t.session.play fuel rest

theorem turn_congr (s : Session) {i j : Input} (h : Coupling.Streams.sameBytes.input i j) (fuel : Nat)
    (signal : Signal) (source : Program) :
    Option.Rel (fun a b => b.unplugged = a.unplugged ∧
        Coupling.Streams.sameBytes.input a.session.input b.session.input)
      ({ s with input := i }.turn fuel signal source) ({ s with input := j }.turn fuel signal source) := by
  unfold Session.turn
  cases Brackets.resolve source with
  | error cause => exact .some ⟨rfl, h⟩
  | ok jumps =>
    have hcoupled : Machine.Coupled (Coupling.Streams.sameBytes.onTape s.store.width)
        (Machine.fresh s.store.tape i s.sink signal) (Machine.fresh s.store.tape j s.sink signal) :=
      ⟨rfl, h, rfl, rfl, fun hlead => absurd rfl hlead, rfl, rfl, rfl, rfl, rfl⟩
    have hlaunch := hcoupled.launch (fun htape => by rw [htape])
      (.refl { program := source, jumps, eof := s.options.eof, limit := s.options.stepLimit? }) fuel
    simp only [machine, task, count, Stack.clear]
    unfold Machine.fresh at hlaunch
    generalize Machine.launch _ fuel _ = p at hlaunch ⊢
    generalize Machine.launch _ fuel _ = q at hlaunch ⊢
    cases hlaunch with
    | none => exact .none
    | @some a b hstop =>
      refine .some ⟨?_, hstop.machine.input⟩
      rw [hstop.eq_withInput]
      rfl

theorem play_congr (fuel : Nat) (s : Session) {i j : Input} (h : Coupling.Streams.sameBytes.input i j)
    (script : List (Signal × Program)) :
    ({ s with input := j }.play fuel script).map Turn.unplugged =
      ({ s with input := i }.play fuel script).map Turn.unplugged := by
  induction script generalizing s i j with
  | nil => rfl
  | cons step rest ih =>
    have hturn := s.turn_congr h fuel step.1 step.2
    rw [play, play]
    generalize ({ s with input := i } : Session).turn fuel step.1 step.2 = p at hturn ⊢
    generalize ({ s with input := j } : Session).turn fuel step.1 step.2 = q at hturn ⊢
    cases hturn with
    | none => rfl
    | @some a b halike =>
      obtain ⟨hsame, hleft⟩ := halike
      have hsession : b.session = { a.session with input := b.session.input } :=
        congrArg (fun t => { t.session with input := b.session.input }) hsame
      rw [List.map_cons, List.map_cons, hsame, hsession]
      exact congrArg _ (ih a.session hleft)

end Session

/-! ### What a step takes -/

namespace Tape
variable {w : Nat}

/-- The tape `t'` has `v` in the current cell of `t`, and is `t` otherwise. -/
structure Holds (t : Tape w) (v : BitVec w) (t' : Tape w) : Prop where
  current : t'.current = v
  pointer : t'.pointer = t.pointer
  size : t'.size = t.size
  others : ∀ i : Nat, i ≠ t.pointer.toNat → t'.cells[i]? = t.cells[i]?

theorem Within.holds_setCurrent {n : Nat} {t : Tape w} (h : t.Within n) (v : BitVec w) :
    t.Holds v (t.setCurrent v) := by
  have hpointer := h.pointer
  have hin : t.pointer.toNat < t.cells.size := by
    rw [show t.cells.size = n from h.size]
    omega
  refine ⟨?_, rfl, by simp [Tape.size, Tape.setCurrent], fun i hi => ?_⟩
  · simp [Tape.setCurrent, current, Array.getD_eq_getD_getElem?, hin]
  · exact Array.getElem?_setIfInBounds_ne (Ne.symm hi)

/-- A byte that is stored is the value of the cell, if that is wide enough. -/
theorem Within.current_setByte {n : Nat} {t : Tape w} (h : t.Within n) (hwide : 8 ≤ w) (b : UInt8) :
    (t.setByte b).current.toNat = b.toNat := by
  rw [show (t.setByte b).current = BitVec.ofNat w b.toNat from (h.holds_setCurrent _).current,
    BitVec.toNat_ofNat]
  exact Nat.mod_eq_of_lt (Nat.lt_of_lt_of_le b.toNat_lt (Nat.pow_le_pow_right (by decide) hwide))

end Tape

namespace Machine
variable {w : Nat} {task : Task} {m m' : Machine w}

/-- Whether the next step takes a byte from the input. -/
def getsByte (task : Task) (m : Machine w) : Bool := (m.reading? task).any fun r => r.input.readByte.1.isOk

/-- The step that takes a byte is the one that counts it. -/
theorem read_of_running (h : m.step task = .running m') :
    m'.read = m.read + (if m.getsByte task then 1 else 0) := by
  have hother {byte : UInt8} (hdue : m.due task = some byte) (hi : Instruction.ofByte? byte ≠ some .input) :
      m.getsByte task = false := by
    rw [getsByte, reading?_of_other hdue hi]
    rfl
  have hreads {byte : UInt8} {answer : Except Fault UInt8} (hdue : m.due task = some byte)
      (hi : Instruction.ofByte? byte = some .input) (hf : m.outbox.flush.failure = none)
      (ht : m.counted.flush.take.1 = answer) : m.getsByte task = answer.isOk := by
    rw [getsByte, reading?_of_due hdue hi hf, ← ht]
    rfl
  cases advances_of_running h with
  | shift hdue _ _ hi => rw [hother hdue hi]; rfl
  | write hdue hi => rw [hother hdue (by rw [hi]; decide)]; rfl
  | read hdue hi hf ht => rw [hreads hdue hi hf ht]; rfl
  | ended hdue hi hf ht => rw [hreads hdue hi hf ht]; rfl
  | skip hdue => rw [hother hdue (by decide)]; rfl
  | enter hdue => rw [hother hdue (by decide)]; rfl
  | leave hdue => rw [hother hdue (by decide)]; rfl
  | back hdue => rw [hother hdue (by decide)]; rfl

theorem read_of_stopped {reason : StopReason} {fault : Option Fault} (h : m.step task = .stopped m' reason fault) :
    m'.read = m.read := by
  rcases stop_cases h with ⟨-, hf⟩ | ⟨n, given, hgive, habort⟩
  · rw [machine_of_finish hf]
    rfl
  · rw [(machine_of_abort habort).1]
    cases hgive <;> rfl

/-! ### Runs -/

/-- A machine that started with `bytes` before it, and `ending` behind them, and has come to `m` by way of `visited`,
has taken the bytes that it has counted, one at each of the machines that were to get one. -/
structure Drawn (task : Task) (bytes : List UInt8) (ending : Fault) (visited : List (Machine w)) (m : Machine w) :
    Prop where
  left : m.input.Yields (bytes.drop m.read) ending
  bound : m.read ≤ bytes.length
  count : m.read = visited.countP (·.getsByte task)

namespace Drawn
variable {bytes : List UInt8} {ending : Fault} {visited : List (Machine w)}

/-- An answer other than the ending is a byte that was left. -/
theorem drop_of_ok (h : m.Drawn task bytes ending visited) {b : UInt8} (hok : m.input.readByte.1 = .ok b) :
    bytes.drop m.read = b :: bytes.drop (m.read + 1) := by
  have hanswer := h.left.readByte.1
  rw [hok] at hanswer
  cases hleft : bytes.drop m.read with
  | nil =>
    rw [hleft] at hanswer
    cases hanswer
  | cons c rest =>
    rw [hleft] at hanswer
    obtain rfl := Except.ok.inj hanswer
    rw [← List.tail_drop, hleft]
    rfl

/-- An answer other than a byte is met where none is left, and leaves it so. -/
theorem left_of_error (h : m.Drawn task bytes ending visited) {fault : Fault}
    (herror : m.input.readByte.1 = .error fault) : m.input.readByte.2.Yields (bytes.drop m.read) ending := by
  obtain ⟨hanswer, hleft⟩ := h.left.readByte
  rw [herror] at hanswer
  cases hnone : bytes.drop m.read with
  | nil =>
    rw [hnone] at hleft
    exact hleft
  | cons c rest =>
    rw [hnone] at hanswer
    cases hanswer

theorem running (h : m.Drawn task bytes ending visited) (hstep : m.step task = .running m') :
    m'.Drawn task bytes ending (visited ++ [m]) := by
  have hcount : m'.read = (visited ++ [m]).countP (·.getsByte task) := by
    rw [read_of_running hstep, h.count, List.countP_append, List.countP_singleton]
  -- What is left changes with a byte only: the ending is met where nothing is left.
  cases advances_of_running hstep with
  | @read _ b _ _ _ ht =>
    have hdrop := h.drop_of_ok (show m.input.readByte.1 = .ok b from ht)
    have hlen := congrArg List.length hdrop
    rw [List.length_drop, List.length_cons] at hlen
    have hleft := h.left.readByte.2
    rw [List.tail_drop] at hleft
    exact ⟨hleft, show m.read + 1 ≤ bytes.length by omega, hcount⟩
  | ended _ _ _ ht => exact ⟨h.left_of_error ht, h.bound, hcount⟩
  | _ => exact ⟨h.left, h.bound, hcount⟩

theorem stopped (h : m.Drawn task bytes ending visited) {reason : StopReason} {fault : Option Fault}
    (hstop : m.step task = .stopped m' reason fault) : m'.Drawn task bytes ending visited := by
  have hread := read_of_stopped hstop
  refine ⟨?_, hread ▸ h.bound, hread.trans h.count⟩
  rw [hread]
  rcases stop_cases hstop with ⟨-, hf⟩ | ⟨n, given, hgive, habort⟩
  · rw [machine_of_finish hf]
    exact h.left
  · rw [(machine_of_abort habort).1]
    cases hgive with
    | reading _ _ _ ht => exact h.left_of_error ht
    | _ => exact h.left

end Drawn

/-- Throughout a run the bytes counted are the bytes taken. -/
theorem Run.drawn {bytes : List UInt8} {ending : Fault} {visited : List (Machine w)} (hrun : Run task m visited m')
    (h : m.input.Yields bytes ending) (hread : m.read = 0) : m'.Drawn task bytes ending visited := by
  refine hrun.invariant (P := fun before n => n.Drawn task bytes ending before) ?_ (fun _ _ _ hn hs => hn.running hs)
  refine ⟨?_, ?_, hread⟩ <;> rw [hread]
  · exact h
  · exact Nat.zero_le _

theorem HaltsAfter.drawn {bytes : List UInt8} {ending : Fault} {visited : List (Machine w)} {h : Halt w}
    (hafter : HaltsAfter task m visited h) (hleft : m.input.Yields bytes ending) (hread : m.read = 0) :
    h.machine.Drawn task bytes ending visited := by
  cases hafter with
  | cancelled _ hstop =>
    rw [(machine_of_abort hstop).1]
    have hstart : m.Drawn task bytes ending [] := Run.drawn (.nil m) hleft hread
    exact ⟨hstart.left, hstart.bound, hstart.count⟩
  | stopped _ hrun hstop => exact (hrun.drawn hleft hread).stopped hstop

/-! ### The next input instruction -/

/-- What the next step does of a machine that has the bytes `left` before it, and `ending` behind them. -/
structure ReadsNext (task : Task) (left : List UInt8) (ending : Fault) (m : Machine w) : Prop where
  /-- A step that does not read leaves the input alone. -/
  aside : m.reading? task = none → (m.step task).machine.input = m.input ∧ (m.step task).machine.read = m.read
  /-- An input instruction reads, unless sending what was collected has failed. -/
  reads : (m.due task).bind Instruction.ofByte? = some .input → m.reading? task = none →
    ∃ k : Halt w, m.step task = .stopped k.machine k.reason k.fault ∧ k.reason = .failed ∧ k.isA .io = true
  /-- It stores the next byte, if one is left. -/
  byte : m.reading? task ≠ none → ∀ b rest, left = b :: rest →
    ∃ m', m.step task = .running m' ∧ m'.tape = m.tape.setByte b ∧ m'.tape.current.toNat = b.toNat ∧
      m'.read = m.read + 1
  /-- Otherwise, if the ending is the end of the input, the policy says what becomes of the cell: it is cleared, or
  filled with ones, or left alone. -/
  ended : m.reading? task ≠ none → left = [] → ending.isA .endOfInput = true →
    ∃ m', m.step task = .running m' ∧ m'.read = m.read ∧
      (task.eof = .zero → m.tape.Holds 0 m'.tape) ∧
      (task.eof = .max → m.tape.Holds (BitVec.allOnes w) m'.tape) ∧
      (task.eof ≠ .zero → task.eof ≠ .max → m'.tape = m.tape)
  /-- And else it fails. -/
  failed : m.reading? task ≠ none → left = [] → ending.isA .endOfInput = false →
    ∃ k : Halt w, m.step task = .stopped k.machine k.reason k.fault ∧ k.reason = .failed ∧ k.isA .io = true

/-- A machine that gives up for input or output has failed, and says so. -/
theorem exists_halt_of_abort (m : Machine w) (cause : Cause) :
    ∃ k : Halt w, m.abort .failed (.caused .io cause) = .stopped k.machine k.reason k.fault ∧ k.reason = .failed ∧
      k.isA .io = true := by
  obtain ⟨told, habort, -⟩ := abort_eq m .failed (.caused .io cause)
  exact ⟨⟨m.flush, .failed, some told⟩, habort, rfl, isA_of_abort (h := ⟨m.flush, .failed, some told⟩) habort .io⟩

theorem Drawn.readsNext {bytes : List UInt8} {ending : Fault} {visited : List (Machine w)}
    (h : m.Drawn task bytes ending visited) {n : Nat} (htape : m.tape.Within n) (hwide : 8 ≤ w) :
    m.ReadsNext task (bytes.drop m.read) ending := by
  have hanswer : m.counted.flush.take.1 = Source.firstOf ending (bytes.drop m.read) := h.left.readByte.1
  have hdue (hreads : m.reading? task ≠ none) : m.outbox.flush.failure = none ∧
      ∃ byte, m.due task = some byte ∧ Instruction.ofByte? byte = some .input := by
    obtain ⟨r, hr⟩ := Option.ne_none_iff_exists'.mp hreads
    exact (due_of_reading? hr).2
  constructor
  case aside =>
    intro hnone
    refine ⟨by rw [input_step, hnone], ?_⟩
    cases hstep : m.step task with
    | running m' => exact (read_of_running hstep).trans (by simp [getsByte, hnone])
    | stopped m' reason fault => exact read_of_stopped hstep
  case reads =>
    intro hinput hnone
    obtain ⟨byte, hbyte, hi⟩ := Option.bind_eq_some_iff.mp hinput
    have hfails : m.outbox.flush.failure ≠ none := fun hf => by
      cases hnone.symm.trans (reading?_of_due hbyte hi hf)
    rw [step_of_due hbyte, execute, hi]
    rcases accept_cases task.eof m.counted with ⟨text, -, hstop⟩ | ⟨hf, -⟩ | ⟨hf, -⟩ | ⟨hf, -⟩
    · rw [hstop]
      exact exists_halt_of_abort _ _
    · exact absurd hf hfails
    · exact absurd hf hfails
    · exact absurd hf hfails
  case byte =>
    intro hreads b rest hleft
    obtain ⟨hf, byte, hbyte, hi⟩ := hdue hreads
    rw [hleft] at hanswer
    exact ⟨_, (Advances.read hbyte hi hf hanswer).running, rfl, htape.current_setByte hwide b, rfl⟩
  case ended =>
    intro hreads hleft hend
    obtain ⟨hf, byte, hbyte, hi⟩ := hdue hreads
    rw [hleft] at hanswer
    refine ⟨_, (Advances.ended hbyte hi hf hanswer hend).running, rfl, fun hzero => ?_, fun hmax => ?_,
      fun hzero hmax => ?_⟩
    · rw [hzero]
      exact htape.holds_setCurrent 0
    · rw [hmax]
      exact htape.holds_setCurrent (BitVec.allOnes w)
    · cases heof : task.eof with
      | zero => exact absurd heof hzero
      | max => exact absurd heof hmax
      | _ => rfl
  case failed =>
    intro hreads hleft hother
    obtain ⟨r, hr⟩ := Option.ne_none_iff_exists'.mp hreads
    rw [hleft, ← (due_of_reading? hr).1] at hanswer
    rw [step_of_failed_read hr hanswer hother]
    exact exists_halt_of_abort _ _

end Machine

/-! ### Sessions -/

namespace Session

/-- Turns one after the other make `s'` of `s`, and have read so many bytes together. -/
inductive Plays (s : Session) : Nat → Session → Prop
  | start : Plays s 0 s
  | turned {done fuel : Nat} {s' : Session} {signal : Signal} {source : Program} {t : Turn} : Plays s done s' →
      s'.turn fuel signal source = some t → Plays s (done + t.result.read) t.session

/-- A session that was given `bytes` with `ending` behind them, and has read `done` of them in the turns before, goes on
with the next one. Each turn takes the bytes that it counts, and every input instruction of it takes the byte whose
place is told by the counts. -/
structure DrawsInOrder (bytes : List UInt8) (ending : Fault) (done : Nat) (s : Session) : Prop where
  left : s.input.Yields (bytes.drop done) ending
  bound : done ≤ bytes.length
  moments : ∀ signal source jumps visited m, Machine.Run (s.task source jumps) (s.machine signal) visited m →
    m.Drawn (s.task source jumps) (bytes.drop done) ending visited ∧
    m.ReadsNext (s.task source jumps) (bytes.drop (done + m.read)) ending
  counts : ∀ signal source jumps visited h, Machine.HaltsAfter (s.task source jumps) (s.machine signal) visited h →
    h.result.read = visited.countP (·.getsByte (s.task source jumps))

section
variable {bytes : List UInt8} {ending : Fault} {done : Nat} {s : Session}
  (hleft : s.input.Yields (bytes.drop done) ending) (hbound : done ≤ bytes.length)
include hleft hbound

theorem WellFormed.drawsInOrder {o : Options} (h : WellFormed o s) : s.DrawsInOrder bytes ending done where
  left := hleft
  bound := hbound
  moments signal source jumps visited m hrun := by
    have hwide : 8 ≤ s.store.width := by
      have hwidth := h.width
      obtain ⟨-, -, hknown, -⟩ := Options.bounds_of_objection? h.valid
      omega
    have htape : m.tape.Within s.store.size := Machine.tape_of_run (fun _ op ht => ht.perform op) hrun h.tape
    have hdrawn : m.Drawn (s.task source jumps) (bytes.drop done) ending visited := hrun.drawn hleft rfl
    have hnext := hdrawn.readsNext htape hwide
    rw [List.drop_drop] at hnext
    exact ⟨hdrawn, hnext⟩
  counts signal source jumps visited h hafter := (hafter.drawn hleft rfl).count

theorem yields_of_turn {fuel : Nat} {signal : Signal} {source : Program} {t : Turn}
    (hturn : s.turn fuel signal source = some t) :
    t.session.input.Yields (bytes.drop (done + t.result.read)) ending ∧ done + t.result.read ≤ bytes.length := by
  rcases turn_cases hturn with ⟨cause, -, hsession, hresult, -⟩ | ⟨jumps, halt, -, hlaunch, hsession, hresult, -⟩
  · rw [hsession, hresult]
    exact ⟨hleft, hbound⟩
  · obtain ⟨visited, hafter⟩ := Machine.halts_iff.mp ⟨fuel, hlaunch⟩
    have hdrawn : halt.machine.Drawn (s.task source jumps) (bytes.drop done) ending visited := hafter.drawn hleft rfl
    have hlater := hdrawn.left
    have hlen := hdrawn.bound
    rw [List.drop_drop] at hlater
    rw [List.length_drop] at hlen
    rw [hsession, hresult]
    exact ⟨hlater, show done + halt.machine.read ≤ bytes.length by omega⟩

end

theorem Plays.drawsInOrder {o : Options} {bytes : List UInt8} {ending : Fault} {s s' : Session} {done : Nat}
    (h : WellFormed o s) (hleft : s.input.Yields bytes ending) (hplays : Plays s done s') :
    s'.DrawsInOrder bytes ending done := by
  -- The counts tell what is left after every turn, and with it what the next one finds.
  suffices hkept : WellFormed o s' ∧ s'.input.Yields (bytes.drop done) ending ∧ done ≤ bytes.length from
    hkept.1.drawsInOrder hkept.2.1 hkept.2.2
  induction hplays with
  | start => exact ⟨h, hleft, Nat.zero_le _⟩
  | turned _ hturn ih => exact ⟨ih.1.turned hturn, yields_of_turn ih.2.1 ih.2.2 hturn⟩

/-- **Input does not depend on how it is delivered.** Two sources with the same bytes and the same ending, however they
spread the bytes over their reads, give the same results, faults, stores and output in every script of turns. The bytes
are taken one by one and in order: at every moment of every turn, the turns before have taken the bytes they have
counted, the turn itself has taken those it has counted so far, and an input instruction stores the next one. Behind the
last byte it applies the policy, or fails if the ending is another. A session without an input plays like one on an
input without bytes that ends. -/
theorem input_as_bytes {o : Options} {s : Session} (hs : Reachable o s) (a b : Source) (hdata : b.data = a.data)
    (hending : b.ending = a.ending) (ha : a.cancelAt ≤ a.calls) (hb : b.cancelAt ≤ b.calls) :
    (∀ fuel script, ({ s with input := .plain b }.play fuel script).map Turn.unplugged =
      ({ s with input := .plain a }.play fuel script).map Turn.unplugged) ∧
    (∀ done s', Plays { s with input := .plain a } done s' → s'.DrawsInOrder a.data a.ending done) ∧
    (a.data = [] → a.ending = .bare .endOfInput → ∀ fuel script,
      ({ s with input := .absent }.play fuel script).map Turn.unplugged =
        ({ s with input := .plain a }.play fuel script).map Turn.unplugged) := by
  have hyields : (Input.plain a).Yields a.data a.ending := .plain ha
  refine ⟨fun fuel script => s.play_congr fuel ⟨a.data, a.ending, hyields, ?_⟩ script, fun done s' hplays => ?_,
    fun hnone hend fuel script => s.play_congr fuel ⟨a.data, a.ending, hyields, ?_⟩ script⟩
  · rw [← hdata, ← hending]
    exact .plain hb
  · have hconnected : Reachable o { s with input := .plain a } := hs.connected (.plain a) s.sink
    exact hplays.drawsInOrder hconnected.wellFormed hyields
  · rw [hnone, hend]
    exact .absent

/-- A source that keeps a session waiting and ends with its last byte plays like one that does not; after one turn
of `,` the second byte is the next; and behind both bytes each policy leaves its own value in the cell. -/
theorem input_as_bytes_slow :
    let s : EofPolicy → Session := fun eof => { options := { tapeSize := 2, eof }, store := ⟨8, Tape.blank 2⟩ }
    let quick : Source := { data := [0x41, 0x42] }
    let slow : Source := { data := [0x41, 0x42], pacing := { gap := fun n => n + 2 }, endsWithData := true }
    (∀ fuel script, ({ s .unchanged with input := .plain slow }.play fuel script).map Turn.unplugged =
      ({ s .unchanged with input := .plain quick }.play fuel script).map Turn.unplugged) ∧
    (∃ s' : Session, Plays { s .unchanged with input := .plain quick } 1 s' ∧
      s'.DrawsInOrder [0x41, 0x42] (.bare .endOfInput) 1) ∧
    ∀ p ∈ [(EofPolicy.zero, 0), (.max, 255), (.unchanged, 0x42)], ∃ (s' : Session) (m' : Machine s'.store.width),
      Plays { s p.1 with input := .plain quick } 2 s' ∧
        (s'.machine .clear).step (s'.task #[0x2c] ⟨#[none], 0⟩) = .running m' ∧ m'.tape.current.toNat = p.2 := by
  intro s quick slow
  have hs : Reachable { tapeSize := 2, eof := .unchanged } (s .unchanged) := .created rfl
  obtain ⟨halike, horder, -⟩ := input_as_bytes hs quick slow rfl rfl (Nat.le_refl 0) (Nat.le_refl 0)
  have hcomma : ({ s .unchanged with input := .plain quick }.turn 2 .clear #[0x2c]).map
      (fun t : Turn => t.result.read) = some 1 := by
    decide +kernel
  obtain ⟨t, hturn, hread⟩ := Option.map_eq_some_iff.mp hcomma
  have hplays := Plays.turned .start hturn
  rw [hread] at hplays
  refine ⟨halike, ⟨t.session, hplays, horder 1 t.session hplays⟩, fun p hp => ?_⟩
  have hknown : Reachable { tapeSize := 2, eof := p.1 } (s p.1) ∧
      ({ s p.1 with input := .plain quick }.turn 3 .clear #[0x2c, 0x2c]).map (fun t : Turn => (t.result.read,
        t.session.store.width, t.session.options.eof, t.session.store.tape.current.toNat,
        ((t.session.machine .clear).reading? (t.session.task #[0x2c] ⟨#[none], 0⟩)).isSome)) =
      some (2, 8, p.1, 0x42, true) := by
    simp only [List.mem_cons, List.not_mem_nil, or_false] at hp
    rcases hp with rfl | rfl | rfl <;> exact ⟨.created rfl, by decide +kernel⟩
  obtain ⟨t, hturn, hdata⟩ := Option.map_eq_some_iff.mp hknown.2
  simp only [Prod.mk.injEq, Option.isSome_iff_ne_none] at hdata
  obtain ⟨hread, hwidth, heof, hcell, hreads⟩ := hdata
  have hplays := Plays.turned .start hturn
  rw [hread] at hplays
  obtain ⟨-, horder, -⟩ := input_as_bytes hknown.1 quick slow rfl rfl (Nat.le_refl 0) (Nat.le_refl 0)
  obtain ⟨-, hnext⟩ := (horder 2 t.session hplays).moments .clear #[0x2c] ⟨#[none], 0⟩ [] _ (.nil _)
  obtain ⟨m', hstep, -, hzero, hmax, hother⟩ := hnext.ended hreads rfl rfl
  refine ⟨t.session, m', hplays, hstep, ?_⟩
  rw [show (t.session.task #[0x2c] ⟨#[none], 0⟩).eof = p.1 from heof] at hzero hmax hother
  simp only [List.mem_cons, List.not_mem_nil, or_false] at hp
  rcases hp with rfl | rfl | rfl
  · rw [(hzero rfl).current]
    rfl
  · rw [(hmax rfl).current, BitVec.toNat_allOnes, hwidth]
  · rw [hother (by decide) (by decide)]
    exact hcell

end Session
end TapeMachine
