import TapeMachine.Machine
import TapeMachine.Proofs.Tree

/-! Runs of a machine.

What a step does is said once. `step_cases` tells where it ends the run and where it executes the byte
that is `due`, `execute_cases` which bytes do what, and `output_cases`, `accept_cases` and so on how each
of these can turn out. Together they give the ways to go on, `Advances`, and the ways to stop, `GivesUp`;
an invariant is proved by going through these.

`Run task m visited m'` says that `m` gets to `m'` by executing one instruction on each of the machines
`visited`, in this order. A task halts, within some fuel, exactly if such a run is followed by a step that
stops, or the signal is raised at the start (`halts_iff`). -/
namespace TapeMachine

namespace Instruction

theorem ofByte?_eq_loop {b : UInt8} : ofByte? b = some .loop ↔ b = Brackets.opening := by
  unfold ofByte? Brackets.opening
  grind

theorem ofByte?_eq_endLoop {b : UInt8} : ofByte? b = some .endLoop ↔ b = Brackets.closing := by
  unfold ofByte? Brackets.closing
  grind

/-- The instructions other than the loop's two are no brackets. -/
theorem plain_of_ofByte? {b : UInt8} {i : Instruction} (h : ofByte? b = some i) (hloop : i ≠ .loop)
    (hend : i ≠ .endLoop) : Brackets.isBracket b = false := by
  have hopen : b ≠ Brackets.opening := fun hb =>
    hloop (Option.some.inj (h.symm.trans (ofByte?_eq_loop.mpr hb)))
  have hclose : b ≠ Brackets.closing := fun hb =>
    hend (Option.some.inj (h.symm.trans (ofByte?_eq_endLoop.mpr hb)))
  simp [Brackets.isBracket, hopen, hclose]

end Instruction

namespace Signal

theorem isRaised_iff {s : Signal} : s.isRaised = true ↔ ∃ reason, s = .raised reason := by
  cases s with
  | raised reason => exact ⟨fun _ => ⟨reason, rfl⟩, fun _ => rfl⟩
  | _ => exact ⟨fun h => (by cases h), fun ⟨_, h⟩ => (by cases h)⟩

@[simp] theorem cancelIf_false (s : Signal) : s.cancelIf false = s := by
  cases s <;> rfl

theorem cancelIf_cancelIf (s : Signal) (first second : Bool) :
    (s.cancelIf first).cancelIf second = s.cancelIf (first || second) := by
  cases s <;> cases first <;> cases second <;> rfl

theorem isRaised_cancelIf {s : Signal} (h : s.isRaised = true) (now : Bool) : (s.cancelIf now).isRaised = true := by
  obtain ⟨reason, rfl⟩ := isRaised_iff.mp h
  rfl

theorem isRaised_advance {s : Signal} (h : s.isRaised = true) : s.advance.isRaised = true := by
  obtain ⟨reason, rfl⟩ := isRaised_iff.mp h
  rfl

end Signal

namespace Machine
variable {w : Nat}

/-- A machine that has not started. -/
def fresh (tape : Tape w) (input : Input) (sink : Option Sink) (signal : Signal) : Machine w :=
  { tape, input, outbox := { sink }, signal }

/-- The machine with its next instruction counted. -/
def counted (m : Machine w) : Machine w := { m with steps := m.steps + 1, signal := m.signal.advance }

/-- Whether a look at the signal stops the run before the next instruction. -/
def isInterrupted (m : Machine w) : Bool :=
  decide ((m.steps + 1) % signalInterval = 0 ∧ m.signal.isRaised = true)

/-- The byte that the next step executes. There is none behind the program, nor where the limit or the
signal stops the run first. -/
def due (task : Task) (m : Machine w) : Option UInt8 :=
  if m.isSpent task.limit || m.isInterrupted then none else task.program[m.ip]?

/-! ### One step -/

/-- What a step does: it ends the run behind the program, at the limit or at the signal, or it executes
the byte that is due. -/
theorem step_cases (task : Task) (m : Machine w) :
    (task.program[m.ip]? = none ∧ m.step task = m.finish) ∨
    (m.ip < task.program.size ∧ m.isSpent task.limit = true ∧
      m.step task = m.abort .stepLimit (.caused .stepLimit (.stepsExecuted m.steps m.ip))) ∨
    (m.ip < task.program.size ∧ m.isSpent task.limit = false ∧ m.isInterrupted = true ∧
      m.step task =
        m.counted.abort .interrupted (.caused .interrupted (.afterSteps (m.steps + 1) m.ip))) ∨
    ∃ byte, m.due task = some byte ∧ m.step task = m.counted.execute task byte := by
  unfold step
  cases hbyte : task.program[m.ip]? with
  | none => exact .inl ⟨rfl, rfl⟩
  | some byte =>
    have hip : m.ip < task.program.size := (Array.getElem?_eq_some_iff.mp hbyte).1
    cases hspent : m.isSpent task.limit with
    | true => exact .inr (.inl ⟨hip, rfl, rfl⟩)
    | false =>
      cases hraised : m.isInterrupted with
      | true => exact .inr (.inr (.inl ⟨hip, rfl, rfl, if_pos (of_decide_eq_true hraised)⟩))
      | false =>
        refine .inr (.inr (.inr ⟨byte, ?_, if_neg (of_decide_eq_false hraised)⟩))
        rw [due, hspent, hraised, hbyte]
        rfl

theorem program_of_due {task : Task} {m : Machine w} {byte : UInt8} (h : m.due task = some byte) :
    task.program[m.ip]? = some byte := by
  unfold due at h
  split at h
  · cases h
  · exact h

theorem step_of_due {task : Task} {m : Machine w} {byte : UInt8} (h : m.due task = some byte) :
    m.step task = m.counted.execute task byte := by
  have hbyte := program_of_due h
  have hgo : ¬(m.isSpent task.limit || m.isInterrupted) = true := by
    intro hstop
    rw [due, if_pos hstop] at h
    cases h
  rw [Bool.or_eq_true, not_or, Bool.not_eq_true, Bool.not_eq_true] at hgo
  simp only [step, hbyte, hgo.1]
  exact if_neg (of_decide_eq_false hgo.2)

theorem step_of_end {task : Task} {m : Machine w} (h : task.program[m.ip]? = none) : m.step task = m.finish := by
  rw [step, h]

/-- The tape after a byte that concerns the tape only. -/
def shifted (byte : UInt8) (t : Tape w) : Tape w :=
  match Instruction.ofByte? byte with
  | some .right => t.moveRight
  | some .left => t.moveLeft
  | some .increment => t.increment
  | some .decrement => t.decrement
  | _ => t

/-- What a byte does: it writes, reads, enters a loop, leaves one, or changes nothing but the tape. -/
theorem execute_cases (task : Task) (byte : UInt8) (m : Machine w) :
    (Instruction.ofByte? byte = some .output ∧ m.execute task byte = m.output) ∨
    (Instruction.ofByte? byte = some .input ∧ m.execute task byte = m.accept task.eof) ∨
    (byte = Brackets.opening ∧ m.execute task byte = m.enter task.jumps) ∨
    (byte = Brackets.closing ∧ m.execute task byte = m.leave) ∨
    (Brackets.isBracket byte = false ∧ Instruction.ofByte? byte ≠ some .output ∧
      Instruction.ofByte? byte ≠ some .input ∧
      m.execute task byte = { m with tape := shifted byte m.tape }.proceed) := by
  by_cases hopen : byte = Brackets.opening
  · exact .inr (.inr (.inl ⟨hopen, by rw [execute, Instruction.ofByte?_eq_loop.mpr hopen]⟩))
  by_cases hclose : byte = Brackets.closing
  · exact .inr (.inr (.inr (.inl
      ⟨hclose, by rw [execute, Instruction.ofByte?_eq_endLoop.mpr hclose]⟩)))
  have hplain : Brackets.isBracket byte = false := by simp [Brackets.isBracket, hopen, hclose]
  have hloop := mt Instruction.ofByte?_eq_loop.mp hopen
  have hend := mt Instruction.ofByte?_eq_endLoop.mp hclose
  unfold execute shifted
  cases hi : Instruction.ofByte? byte with
  | none => exact .inr (.inr (.inr (.inr ⟨hplain, by decide, by decide, rfl⟩)))
  | some i =>
    cases i with
    | output => exact .inl ⟨rfl, rfl⟩
    | input => exact .inr (.inl ⟨rfl, rfl⟩)
    | loop => exact absurd hi hloop
    | endLoop => exact absurd hi hend
    | _ => exact .inr (.inr (.inr (.inr ⟨hplain, by decide, by decide, rfl⟩)))

/-- Stopping with a fault sends what is collected. The fault told is the one given, or that and a failure
to send. -/
theorem abort_eq (m : Machine w) (reason : StopReason) (fault : Fault) :
    ∃ told, m.abort reason fault = .stopped m.flush reason (some told) ∧
      (m.flush.outbox.failure = none → told = fault) ∧
      ∀ kind, kind ≠ .io → told.isA kind = fault.isA kind := by
  cases hf : m.flush.outbox.failure with
  | none => exact ⟨fault, by simp only [abort, hf], fun _ => rfl, fun _ _ => rfl⟩
  | some text =>
    refine ⟨if fault.isA .io then fault else .both fault (.caused .io (.flushing text)),
      by simp only [abort, hf], (fun h => by cases h), fun kind hkind => ?_⟩
    cases hio : fault.isA .io with
    | true => rfl
    | false =>
      have hne : (Kind.io == kind) = false := by simpa using hkind.symm
      simp [Fault.isA, hne]

/-- The end of the program sends what is collected, and is a good end if that succeeds. -/
theorem finish_cases (m : Machine w) :
    (m.flush.outbox.failure = none ∧ m.finish = .stopped m.flush .finished none) ∨
    ∃ text, m.flush.outbox.failure = some text ∧
      m.finish = .stopped m.flush .failed (some (.caused .io (.flushing text))) := by
  cases hf : m.flush.outbox.failure with
  | none => exact .inl ⟨rfl, by simp only [finish, hf]⟩
  | some text => exact .inr ⟨text, rfl, by simp only [finish, hf]⟩

/-- Either way the machine is left flushed. -/
theorem machine_of_finish {m m' : Machine w} {reason : StopReason} {fault : Option Fault}
    (h : m.finish = .stopped m' reason fault) : m' = m.flush := by
  rcases finish_cases m with ⟨-, hm⟩ | ⟨text, -, hm⟩ <;> rw [hm] at h <;>
    exact (Progress.stopped.inj h).1.symm

theorem machine_of_abort {m m' : Machine w} {reason reason' : StopReason} {fault : Fault}
    {told : Option Fault} (h : m.abort reason fault = .stopped m' reason' told) :
    m' = m.flush ∧ reason' = reason := by
  obtain ⟨_, habort, -⟩ := abort_eq m reason fault
  obtain ⟨hm, hreason, -⟩ := Progress.stopped.inj (habort.symm.trans h)
  exact ⟨hm.symm, hreason.symm⟩

theorem output_cases (m : Machine w) :
    ((m.outbox.put m.tape.byte).failure = none ∧ m.output = .running
      { m.send (·.put m.tape.byte) with written := m.written + 1, ip := m.ip + 1 }) ∨
    ∃ text, (m.outbox.put m.tape.byte).failure = some text ∧
      m.output = (m.send (·.put m.tape.byte)).abort .failed (.caused .io (.writing m.ip text)) := by
  unfold output
  cases hf : (m.outbox.put m.tape.byte).failure with
  | none => exact .inl ⟨rfl, by simp only [send, hf]; rfl⟩
  | some text => exact .inr ⟨text, rfl, by simp only [send, hf]⟩

/-- An input instruction sends what is collected and then reads: it takes a byte, or meets the end of the
input, or fails. -/
theorem accept_cases (eof : EofPolicy) (m : Machine w) :
    (∃ text, m.outbox.flush.failure = some text ∧
      m.accept eof = m.flush.abort .failed (.caused .io (.flushingAt m.ip text))) ∨
    (m.outbox.flush.failure = none ∧ ∃ b, m.flush.take.1 = .ok b ∧ m.accept eof = .running
      { m.flush.take.2 with tape := m.tape.setByte b, read := m.read + 1, ip := m.ip + 1 }) ∨
    (m.outbox.flush.failure = none ∧ ∃ fault, m.flush.take.1 = .error fault ∧
      fault.isA .endOfInput = true ∧
      m.accept eof = .running { m.flush.take.2 with tape := applyEof eof m.tape, ip := m.ip + 1 }) ∨
    (m.outbox.flush.failure = none ∧ ∃ fault, m.flush.take.1 = .error fault ∧
      fault.isA .endOfInput = false ∧
      m.accept eof = m.flush.take.2.abort .failed (.caused .io (.reading m.ip fault.message))) := by
  cases hf : m.flush.outbox.failure with
  | some text => exact .inl ⟨text, hf, by simp only [accept, hf]; rfl⟩
  | none =>
    rcases ht : m.flush.take with ⟨answer, after⟩
    have hafter : after = m.flush.take.2 := by rw [ht]
    have htape : after.tape = m.tape := by rw [hafter]; rfl
    have hread : after.read = m.read := by rw [hafter]; rfl
    have hip : after.ip = m.ip := by rw [hafter]; rfl
    rw [← htape, ← hread, ← hip]
    cases answer with
    | ok b => exact .inr (.inl ⟨hf, b, rfl, by simp only [accept, hf, ht, proceed]⟩)
    | error fault =>
      cases he : fault.isA .endOfInput with
      | true =>
        exact .inr (.inr (.inl ⟨hf, fault, rfl, he, by simp only [accept, hf, ht, he, if_true, proceed]⟩))
      | false =>
        refine .inr (.inr (.inr ⟨hf, fault, rfl, he, ?_⟩))
        simp only [accept, hf, ht, he, Bool.false_eq_true, if_false]

theorem enter_cases (jumps : JumpTable) (m : Machine w) :
    (m.tape.isZero = true ∧ ∃ j, jumps.partner? m.ip = some j ∧
      m.enter jumps = .running { m with ip := j + 1 }) ∨
    (m.tape.isZero = true ∧ jumps.partner? m.ip = none ∧
      m.enter jumps = m.abort .failed (.caused .unbalancedBrackets (.unrecordedOpen m.ip))) ∨
    (m.tape.isZero = false ∧
      m.enter jumps = .running { m with loops := m.loops.push m.ip, ip := m.ip + 1 }) := by
  unfold enter
  cases m.tape.isZero with
  | false => exact .inr (.inr ⟨rfl, rfl⟩)
  | true =>
    cases jumps.partner? m.ip with
    | none => exact .inr (.inl ⟨rfl, rfl, rfl⟩)
    | some j => exact .inl ⟨rfl, j, rfl, rfl⟩

theorem leave_cases (m : Machine w) :
    (m.loops.items = [] ∧
      m.leave = m.abort .failed (.caused .unbalancedBrackets (.strayClose m.ip))) ∨
    ∃ start rest, m.loops.items = start :: rest ∧
      ((m.tape.isZero = true ∧ m.leave = .running { m with loops := ⟨rest⟩, ip := m.ip + 1 }) ∨
      (m.tape.isZero = false ∧ m.leave = .running { m with loops := ⟨rest⟩, ip := start })) := by
  unfold leave Stack.pop
  cases m.loops.items with
  | nil => exact .inl ⟨rfl, rfl⟩
  | cons start rest =>
    refine .inr ⟨start, rest, rfl, ?_⟩
    cases m.tape.isZero with
    | true => exact .inl ⟨rfl, rfl⟩
    | false => exact .inr ⟨rfl, rfl⟩

/-- A step that goes on executes the byte that is due. -/
theorem due_of_running {task : Task} {m m' : Machine w} (h : m.step task = .running m') :
    ∃ byte, m.due task = some byte ∧ m.counted.execute task byte = .running m' := by
  rcases step_cases task m with ⟨-, hs⟩ | ⟨-, -, hs⟩ | ⟨-, -, -, hs⟩ | ⟨byte, hdue, hs⟩
  · rcases finish_cases m with ⟨-, hf⟩ | ⟨text, -, hf⟩ <;> rw [hs, hf] at h <;> cases h
  · obtain ⟨told, ha, -⟩ := abort_eq m .stepLimit (.caused .stepLimit (.stepsExecuted m.steps m.ip))
    rw [hs, ha] at h
    cases h
  · obtain ⟨told, ha, -⟩ :=
      abort_eq m.counted .interrupted (.caused .interrupted (.afterSteps (m.steps + 1) m.ip))
    rw [hs, ha] at h
    cases h
  · exact ⟨byte, hdue, by rw [← hs, h]⟩

theorem abort_ne_running (m m' : Machine w) (reason : StopReason) (fault : Fault) :
    m.abort reason fault ≠ .running m' := by
  obtain ⟨told, ha, -⟩ := abort_eq m reason fault
  rw [ha]
  exact fun h => by cases h

/-- The ways in which a step goes on, and the machine that each leads to. -/
inductive Advances (task : Task) (m : Machine w) : Machine w → Prop
  /-- The byte concerns nothing but the tape. -/
  | shift {byte : UInt8} : m.due task = some byte → Brackets.isBracket byte = false →
      Instruction.ofByte? byte ≠ some .output → Instruction.ofByte? byte ≠ some .input →
      Advances task m { m.counted with tape := shifted byte m.tape, ip := m.ip + 1 }
  | write {byte : UInt8} : m.due task = some byte → Instruction.ofByte? byte = some .output →
      (m.outbox.put m.tape.byte).failure = none →
      Advances task m
        { m.counted.send (·.put m.tape.byte) with written := m.written + 1, ip := m.ip + 1 }
  | read {byte b : UInt8} : m.due task = some byte → Instruction.ofByte? byte = some .input →
      m.outbox.flush.failure = none → m.counted.flush.take.1 = .ok b →
      Advances task m
        { m.counted.flush.take.2 with
          tape := m.tape.setByte b, read := m.read + 1, ip := m.ip + 1 }
  /-- The input has ended. -/
  | ended {byte : UInt8} {fault : Fault} : m.due task = some byte →
      Instruction.ofByte? byte = some .input → m.outbox.flush.failure = none →
      m.counted.flush.take.1 = .error fault → fault.isA .endOfInput = true →
      Advances task m { m.counted.flush.take.2 with tape := applyEof task.eof m.tape, ip := m.ip + 1 }
  /-- A loop is skipped. -/
  | skip {j : Nat} : m.due task = some Brackets.opening → m.tape.isZero = true →
      task.jumps.partner? m.ip = some j → Advances task m { m.counted with ip := j + 1 }
  | enter : m.due task = some Brackets.opening → m.tape.isZero = false →
      Advances task m { m.counted with loops := m.loops.push m.ip, ip := m.ip + 1 }
  | leave {start : Nat} {rest : List Nat} : m.due task = some Brackets.closing →
      m.loops.items = start :: rest → m.tape.isZero = true →
      Advances task m { m.counted with loops := ⟨rest⟩, ip := m.ip + 1 }
  /-- A loop is repeated. -/
  | back {start : Nat} {rest : List Nat} : m.due task = some Brackets.closing →
      m.loops.items = start :: rest → m.tape.isZero = false →
      Advances task m { m.counted with loops := ⟨rest⟩, ip := start }

/-- A step that goes on does so in one of these ways. -/
theorem advances_of_running {task : Task} {m m' : Machine w} (h : m.step task = .running m') :
    Advances task m m' := by
  obtain ⟨byte, hdue, hexec⟩ := due_of_running h
  rcases execute_cases task byte m.counted with ⟨hi, hx⟩ | ⟨hi, hx⟩ | ⟨rfl, hx⟩ | ⟨rfl, hx⟩ |
    ⟨hb, ho, hi, hx⟩ <;> rw [hx] at hexec
  · rcases output_cases m.counted with ⟨hf, ho⟩ | ⟨text, -, ho⟩ <;> rw [ho] at hexec
    · obtain rfl := Progress.running.inj hexec
      exact .write hdue hi hf
    · exact absurd hexec (abort_ne_running _ _ _ _)
  · rcases accept_cases task.eof m.counted with ⟨text, -, ho⟩ | ⟨hf, b, ht, ho⟩ |
      ⟨hf, fault, ht, he, ho⟩ | ⟨-, fault, -, -, ho⟩ <;> rw [ho] at hexec
    · exact absurd hexec (abort_ne_running _ _ _ _)
    · obtain rfl := Progress.running.inj hexec
      exact .read hdue hi hf ht
    · obtain rfl := Progress.running.inj hexec
      exact .ended hdue hi hf ht he
    · exact absurd hexec (abort_ne_running _ _ _ _)
  · rcases enter_cases task.jumps m.counted with ⟨hz, j, hj, ho⟩ | ⟨-, -, ho⟩ | ⟨hz, ho⟩ <;>
      rw [ho] at hexec
    · obtain rfl := Progress.running.inj hexec
      exact .skip hdue hz hj
    · exact absurd hexec (abort_ne_running _ _ _ _)
    · obtain rfl := Progress.running.inj hexec
      exact .enter hdue hz
  · rcases leave_cases m.counted with ⟨-, ho⟩ | ⟨start, rest, hitems, ⟨hz, ho⟩ | ⟨hz, ho⟩⟩ <;>
      rw [ho] at hexec
    · exact absurd hexec (abort_ne_running _ _ _ _)
    · obtain rfl := Progress.running.inj hexec
      exact .leave hdue hitems hz
    · obtain rfl := Progress.running.inj hexec
      exact .back hdue hitems hz
  · obtain rfl := Progress.running.inj hexec
    exact .shift hdue hb ho hi

/-- In each of these ways a step does go on. -/
theorem Advances.running {task : Task} {m m' : Machine w} (h : Advances task m m') :
    m.step task = .running m' := by
  cases h with
  | @shift byte hdue hb ho hi =>
    rw [step_of_due hdue]
    rcases execute_cases task byte m.counted with ⟨ho', -⟩ | ⟨hi', -⟩ | ⟨rfl, -⟩ | ⟨rfl, -⟩ |
      ⟨-, -, -, hx⟩
    · exact absurd ho' ho
    · exact absurd hi' hi
    · cases hb
    · cases hb
    · exact hx
  | write hdue hi hf =>
    rw [step_of_due hdue, execute, hi]
    rcases output_cases m.counted with ⟨-, ho⟩ | ⟨text, hf', -⟩
    · exact ho
    · cases hf.symm.trans hf'
  | read hdue hi hf ht =>
    rw [step_of_due hdue, execute, hi]
    rcases accept_cases task.eof m.counted with ⟨text, hf', -⟩ | ⟨-, b, ht', ho⟩ |
      ⟨-, fault, ht', -⟩ | ⟨-, fault, ht', -⟩
    · cases hf.symm.trans hf'
    · obtain rfl := Except.ok.inj (ht.symm.trans ht')
      exact ho
    · cases ht.symm.trans ht'
    · cases ht.symm.trans ht'
  | ended hdue hi hf ht he =>
    rw [step_of_due hdue, execute, hi]
    rcases accept_cases task.eof m.counted with ⟨text, hf', -⟩ | ⟨-, b, ht', -⟩ |
      ⟨-, fault, -, -, ho⟩ | ⟨-, fault, ht', he', -⟩
    · cases hf.symm.trans hf'
    · cases ht.symm.trans ht'
    · exact ho
    · obtain rfl := Except.error.inj (ht.symm.trans ht')
      cases he.symm.trans he'
  | skip hdue hz hj =>
    rw [step_of_due hdue, execute, Instruction.ofByte?_eq_loop.mpr rfl]
    rcases enter_cases task.jumps m.counted with ⟨-, j, hj', ho⟩ | ⟨-, hj', -⟩ | ⟨hz', -⟩
    · obtain rfl := Option.some.inj (hj.symm.trans hj')
      exact ho
    · cases hj.symm.trans hj'
    · cases hz.symm.trans hz'
  | enter hdue hz =>
    rw [step_of_due hdue, execute, Instruction.ofByte?_eq_loop.mpr rfl]
    rcases enter_cases task.jumps m.counted with ⟨hz', -⟩ | ⟨hz', -⟩ | ⟨-, ho⟩
    · cases hz.symm.trans hz'
    · cases hz.symm.trans hz'
    · exact ho
  | leave hdue hitems hz =>
    rw [step_of_due hdue, execute, Instruction.ofByte?_eq_endLoop.mpr rfl]
    rcases leave_cases m.counted with ⟨hnil, -⟩ | ⟨start, rest, hitems', ⟨-, ho⟩ | ⟨hz', -⟩⟩
    · cases hitems.symm.trans hnil
    · obtain ⟨-, rfl⟩ := List.cons.inj (hitems.symm.trans hitems')
      exact ho
    · cases hz.symm.trans hz'
  | back hdue hitems hz =>
    rw [step_of_due hdue, execute, Instruction.ofByte?_eq_endLoop.mpr rfl]
    rcases leave_cases m.counted with ⟨hnil, -⟩ | ⟨start, rest, hitems', ⟨hz', -⟩ | ⟨-, ho⟩⟩
    · cases hitems.symm.trans hnil
    · cases hz.symm.trans hz'
    · obtain ⟨rfl, rfl⟩ := List.cons.inj (hitems.symm.trans hitems')
      exact ho

/-- The ways in which a step gives up: from which machine, for what reason and with what fault. -/
inductive GivesUp (task : Task) (m : Machine w) : Machine w → StopReason → Fault → Prop
  | spent : m.ip < task.program.size → m.isSpent task.limit = true →
      GivesUp task m m .stepLimit (.caused .stepLimit (.stepsExecuted m.steps m.ip))
  | interrupted : m.ip < task.program.size → m.isSpent task.limit = false →
      m.isInterrupted = true →
      GivesUp task m m.counted .interrupted
        (.caused .interrupted (.afterSteps (m.steps + 1) m.ip))
  | writing {byte : UInt8} {text : String} : m.due task = some byte →
      Instruction.ofByte? byte = some .output → (m.outbox.put m.tape.byte).failure = some text →
      GivesUp task m (m.counted.send (·.put m.tape.byte)) .failed (.caused .io (.writing m.ip text))
  | flushing {byte : UInt8} {text : String} : m.due task = some byte →
      Instruction.ofByte? byte = some .input → m.outbox.flush.failure = some text →
      GivesUp task m m.counted.flush .failed (.caused .io (.flushingAt m.ip text))
  | reading {byte : UInt8} {fault : Fault} : m.due task = some byte →
      Instruction.ofByte? byte = some .input → m.outbox.flush.failure = none →
      m.counted.flush.take.1 = .error fault → fault.isA .endOfInput = false →
      GivesUp task m m.counted.flush.take.2 .failed (.caused .io (.reading m.ip fault.message))
  | unrecorded : m.due task = some Brackets.opening → m.tape.isZero = true →
      task.jumps.partner? m.ip = none →
      GivesUp task m m.counted .failed (.caused .unbalancedBrackets (.unrecordedOpen m.ip))
  | stray : m.due task = some Brackets.closing → m.loops.items = [] →
      GivesUp task m m.counted .failed (.caused .unbalancedBrackets (.strayClose m.ip))

/-- A step that stops is behind the program, or gives up. -/
theorem stop_cases {task : Task} {m m' : Machine w} {reason : StopReason} {fault : Option Fault}
    (h : m.step task = .stopped m' reason fault) :
    (task.program[m.ip]? = none ∧ m.finish = .stopped m' reason fault) ∨
    ∃ n given, GivesUp task m n reason given ∧ n.abort reason given = .stopped m' reason fault := by
  -- An abort stops for the reason that it is given.
  have hgive {n : Machine w} {r : StopReason} {given : Fault}
      (ha : n.abort r given = .stopped m' reason fault) (hg : GivesUp task m n r given) :
      ∃ n given, GivesUp task m n reason given ∧ n.abort reason given = .stopped m' reason fault := by
    obtain ⟨-, rfl⟩ := machine_of_abort ha
    exact ⟨n, given, hg, ha⟩
  rcases step_cases task m with ⟨hend, hs⟩ | ⟨hip, hspent, hs⟩ | ⟨hip, hspent, hraised, hs⟩ |
    ⟨byte, hdue, hs⟩ <;> rw [hs] at h
  · exact .inl ⟨hend, h⟩
  · exact .inr (hgive h (.spent hip hspent))
  · exact .inr (hgive h (.interrupted hip hspent hraised))
  · refine .inr ?_
    rcases execute_cases task byte m.counted with ⟨hi, hx⟩ | ⟨hi, hx⟩ | ⟨rfl, hx⟩ | ⟨rfl, hx⟩ |
      ⟨-, -, -, hx⟩ <;> rw [hx] at h
    · rcases output_cases m.counted with ⟨-, ho⟩ | ⟨text, hf, ho⟩ <;> rw [ho] at h
      · cases h
      · exact hgive h (.writing hdue hi hf)
    · rcases accept_cases task.eof m.counted with ⟨text, hf, ho⟩ | ⟨-, b, -, ho⟩ | ⟨-, told, -, -, ho⟩ |
        ⟨hf, told, ht, he, ho⟩ <;> rw [ho] at h
      · exact hgive h (.flushing hdue hi hf)
      · cases h
      · cases h
      · exact hgive h (.reading hdue hi hf ht he)
    · rcases enter_cases task.jumps m.counted with ⟨-, j, -, ho⟩ | ⟨hz, hnone, ho⟩ | ⟨-, ho⟩ <;>
        rw [ho] at h
      · cases h
      · exact hgive h (.unrecorded hdue hz hnone)
      · cases h
    · rcases leave_cases m.counted with ⟨hnil, ho⟩ | ⟨start, rest, -, ⟨-, ho⟩ | ⟨-, ho⟩⟩ <;> rw [ho] at h
      · exact hgive h (.stray hdue hnil)
      · cases h
      · cases h
    · cases h

/-! ### Runs -/

/-- `m` gets to `m'` by executing one instruction on each of the machines `visited`. -/
inductive Run (task : Task) : Machine w → List (Machine w) → Machine w → Prop
  | nil (m : Machine w) : Run task m [] m
  | cons {m m' m'' : Machine w} {visited : List (Machine w)} : m.step task = .running m' →
      Run task m' visited m'' → Run task m (m :: visited) m''

namespace Run
variable {task : Task} {m m' m'' : Machine w} {visited later : List (Machine w)}

theorem append (h : Run task m visited m') (h' : Run task m' later m'') :
    Run task m (visited ++ later) m'' := by
  induction h with
  | nil m => exact h'
  | cons hstep _ ih => exact .cons hstep (ih h')

theorem single (h : m.step task = .running m') : Run task m [m] m' := .cons h (.nil m')

/-- Every instruction executed is counted. -/
theorem steps_eq (h : Run task m visited m') : m'.steps = m.steps + visited.length := by
  induction h with
  | nil m => rfl
  | cons hstep _ ih =>
    rw [ih, List.length_cons]
    cases advances_of_running hstep <;> simp only [counted, send, flush, take] <;> omega

/-- What holds at the start and is kept by every step holds throughout. -/
theorem invariant {P : List (Machine w) → Machine w → Prop} (h : Run task m visited m')
    (hstart : P [] m)
    (hstep : ∀ before n n', P before n → n.step task = .running n' → P (before ++ [n]) n') :
    P visited m' := by
  suffices ∀ before, P before m → P (before ++ visited) m' from this [] hstart
  clear hstart
  induction h with
  | nil m =>
    intro before hp
    rw [List.append_nil]
    exact hp
  | cons hs _ ih =>
    intro before hp
    have := ih (before ++ [_]) (hstep before _ _ hp hs)
    rwa [List.append_assoc, List.singleton_append] at this

end Run

/-- A task halts as `h`. -/
def Halts (task : Task) (m : Machine w) (h : Halt w) : Prop := ∃ fuel, m.launch task fuel = some h

/-- Fuel for a run and more goes on from where the run gets. -/
theorem Run.run_add {task : Task} {m m' : Machine w} {visited : List (Machine w)}
    (h : Run task m visited m') (fuel : Nat) :
    run task (visited.length + fuel) m = run task fuel m' := by
  induction h with
  | nil m => rw [List.length_nil, Nat.zero_add]
  | cons hstep _ ih =>
    rw [List.length_cons, show ∀ n, n + 1 + fuel = n + fuel + 1 by omega, run, hstep]
    exact ih

/-- A run that uses up the fuel has not stopped. -/
theorem Run.run_short {task : Task} {m m' : Machine w} {visited : List (Machine w)}
    (h : Run task m visited m') {fuel : Nat} (hfuel : fuel ≤ visited.length) :
    run task fuel m = none := by
  induction h generalizing fuel with
  | nil m =>
    rw [List.length_nil, Nat.le_zero] at hfuel
    rw [hfuel, run]
  | cons hstep _ ih =>
    cases fuel with
    | zero => rfl
    | succ fuel =>
      rw [run, hstep]
      exact ih (by rw [List.length_cons] at hfuel; omega)

theorem run_eq_some_iff {task : Task} {m : Machine w} {fuel : Nat} {h : Halt w} :
    run task fuel m = some h ↔ ∃ visited last, visited.length < fuel ∧ Run task m visited last ∧
      last.step task = .stopped h.machine h.reason h.fault := by
  constructor
  · intro hrun
    induction fuel generalizing m with
    | zero => cases hrun
    | succ fuel ih =>
      rw [run] at hrun
      cases hstep : m.step task with
      | running m' =>
        rw [hstep] at hrun
        obtain ⟨visited, last, hlen, hr, hstop⟩ := ih hrun
        exact ⟨m :: visited, last, by rw [List.length_cons]; omega, .cons hstep hr, hstop⟩
      | stopped m' reason fault =>
        rw [hstep] at hrun
        obtain rfl := Option.some.inj hrun
        exact ⟨[], m, Nat.succ_pos fuel, .nil m, hstep⟩
  · intro hex
    obtain ⟨visited, last, hlen, hr, hstop⟩ := hex
    obtain ⟨k, rfl⟩ : ∃ k, fuel = visited.length + (k + 1) := ⟨fuel - visited.length - 1, by omega⟩
    rw [hr.run_add, run, hstop]

/-- More fuel than suffices changes nothing. -/
theorem run_mono {task : Task} {m : Machine w} {fuel more : Nat} {h : Halt w}
    (hrun : run task fuel m = some h) (hle : fuel ≤ more) : run task more m = some h := by
  obtain ⟨visited, last, hlen, hr, hstop⟩ := run_eq_some_iff.mp hrun
  exact run_eq_some_iff.mpr ⟨visited, last, by omega, hr, hstop⟩

theorem launch_eq {task : Task} {m : Machine w} (hquiet : m.signal.isRaised = false) (fuel : Nat) :
    m.launch task fuel = run task fuel m := by
  unfold launch start
  cases hs : m.signal with
  | clear => rfl
  | pending left reason => rfl
  | raised reason =>
    rw [hs] at hquiet
    cases hquiet

theorem launch_mono {task : Task} {m : Machine w} {fuel more : Nat} {h : Halt w}
    (hlaunch : m.launch task fuel = some h) (hle : fuel ≤ more) : m.launch task more = some h := by
  unfold launch at hlaunch ⊢
  cases hstart : m.start with
  | running m' =>
    rw [hstart] at hlaunch
    exact run_mono hlaunch hle
  | stopped m' reason fault =>
    rw [hstart] at hlaunch
    exact hlaunch

/-- A task halts as `h` after executing one instruction on each of the machines `visited`: at once, if
the signal is raised already, or at the end of a run that a stopping step follows. -/
inductive HaltsAfter (task : Task) (m : Machine w) : List (Machine w) → Halt w → Prop
  | cancelled {reason : String} {h : Halt w} : m.signal = .raised reason →
      m.abort .interrupted (.caused .interrupted (.cancelled reason)) =
        .stopped h.machine h.reason h.fault → HaltsAfter task m [] h
  | stopped {visited : List (Machine w)} {last : Machine w} {h : Halt w} : m.signal.isRaised = false →
      Run task m visited last → last.step task = .stopped h.machine h.reason h.fault →
      HaltsAfter task m visited h

theorem halts_iff {task : Task} {m : Machine w} {h : Halt w} :
    Halts task m h ↔ ∃ visited, HaltsAfter task m visited h := by
  cases hs : m.signal.isRaised with
  | false =>
    constructor
    · intro hhalts
      obtain ⟨fuel, hfuel⟩ := hhalts
      rw [launch_eq hs] at hfuel
      obtain ⟨visited, last, -, hr, hstop⟩ := run_eq_some_iff.mp hfuel
      exact ⟨visited, .stopped hs hr hstop⟩
    · intro hafter
      obtain ⟨visited, hafter⟩ := hafter
      cases hafter with
      | cancelled hraised =>
        rw [hraised] at hs
        cases hs
      | stopped _ hr hstop =>
        refine ⟨visited.length + 1, ?_⟩
        rw [launch_eq hs]
        exact run_eq_some_iff.mpr ⟨visited, _, Nat.lt_succ_self _, hr, hstop⟩
  | true =>
    obtain ⟨reason, hs⟩ := Signal.isRaised_iff.mp hs
    obtain ⟨told, habort, -⟩ :=
      abort_eq m .interrupted (.caused .interrupted (.cancelled reason))
    have hlaunch (fuel : Nat) : m.launch task fuel = some ⟨m.flush, .interrupted, some told⟩ := by
      simp only [launch, start, hs, habort]
    constructor
    · intro hhalts
      obtain ⟨fuel, hfuel⟩ := hhalts
      rw [hlaunch] at hfuel
      obtain rfl := Option.some.inj hfuel
      exact ⟨[], .cancelled hs habort⟩
    · intro hafter
      obtain ⟨visited, hafter⟩ := hafter
      cases hafter with
      | cancelled hraised hstop =>
        obtain rfl := Signal.raised.inj (hs.symm.trans hraised)
        rw [habort] at hstop
        obtain ⟨h1, h2, h3⟩ := Progress.stopped.inj hstop
        exact ⟨0, by rw [hlaunch, h1, h2, h3]⟩
      | stopped hquiet =>
        rw [hs] at hquiet
        cases hquiet

/-- A task halts in one way only. -/
theorem Halts.unique {task : Task} {m : Machine w} {h h' : Halt w} (hh : Halts task m h)
    (hh' : Halts task m h') : h = h' := by
  obtain ⟨fuel, hfuel⟩ := hh
  obtain ⟨fuel', hfuel'⟩ := hh'
  have hl := launch_mono hfuel (Nat.le_max_left fuel fuel')
  have hr := launch_mono hfuel' (Nat.le_max_right fuel fuel')
  exact Option.some.inj (hl.symm.trans hr)

/-! ### Prefixes of runs -/

/-- A machine makes any number of instructions, unless it stops before. -/
theorem run_or_stops (task : Task) (m : Machine w) (n : Nat) :
    (∃ visited last, Run task m visited last ∧ visited.length = n) ∨
    ∃ visited last, ∃ h : Halt w, Run task m visited last ∧ visited.length < n ∧
      last.step task = .stopped h.machine h.reason h.fault := by
  induction n generalizing m with
  | zero => exact .inl ⟨[], m, .nil m, rfl⟩
  | succ n ih =>
    cases hstep : m.step task with
    | stopped m' reason fault =>
      exact .inr ⟨[], m, ⟨m', reason, fault⟩, .nil m, Nat.succ_pos n, hstep⟩
    | running m' =>
      rcases ih m' with ⟨visited, last, hrun, hlen⟩ | ⟨visited, last, h, hrun, hlen, hstop⟩
      · exact .inl ⟨m :: visited, last, .cons hstep hrun, by rw [List.length_cons, hlen]⟩
      · exact .inr ⟨m :: visited, last, h, .cons hstep hrun, Nat.succ_lt_succ hlen, hstop⟩

/-- Of two runs the longer one goes on from where the shorter one gets. -/
theorem Run.extends {task : Task} {m a b : Machine w} {visited visited' : List (Machine w)}
    (h : Run task m visited a) (h' : Run task m visited' b) (hlen : visited.length ≤ visited'.length) :
    ∃ later, visited' = visited ++ later ∧ Run task a later b := by
  induction h generalizing visited' with
  | nil => exact ⟨visited', rfl, h'⟩
  | cons hstep _ ih =>
    cases h' with
    | nil => cases hlen
    | cons hstep' hrun' =>
      obtain rfl := Progress.running.inj (hstep.symm.trans hstep')
      obtain ⟨later, rfl, hlater⟩ := ih hrun' (Nat.le_of_succ_le_succ hlen)
      exact ⟨later, rfl, hlater⟩

/-- Two runs of the same length are the same. -/
theorem Run.unique {task : Task} {m a b : Machine w} {visited visited' : List (Machine w)}
    (h : Run task m visited a) (h' : Run task m visited' b) (hlen : visited.length = visited'.length) :
    visited = visited' ∧ a = b := by
  obtain ⟨later, rfl, hlater⟩ := h.extends h' (Nat.le_of_eq hlen)
  have hnone : later = [] := by simpa using hlen
  subst hnone
  cases hlater
  exact ⟨(List.append_nil visited).symm, rfl⟩

/-- A run carries over along a map of machines under which the steps of the run are steps again. -/
theorem Run.map {v : Nat} {task task' : Task} (f : Machine w → Machine v) {m m' : Machine w}
    {visited : List (Machine w)} (h : Run task m visited m')
    (hstep : ∀ n ∈ visited, ∀ n', n.step task = .running n' → (f n).step task' = .running (f n')) :
    Run task' (f m) (visited.map f) (f m') := by
  induction h with
  | nil m => exact .nil (f m)
  | cons hs _ ih =>
    exact .cons (hstep _ (List.mem_cons_self ..) _ hs) (ih fun n hn => hstep n (List.mem_cons_of_mem _ hn))

/-- Machines of which each gets to one further on in a round of `n` instructions go round any number of times. -/
theorem Run.rounds {task : Task} {f : Nat → Machine w} {n : Nat}
    (hround : ∀ k, ∃ visited, Run task (f k) visited (f (k + n)) ∧ visited.length = n) (k rounds : Nat) :
    ∃ visited, Run task (f k) visited (f (k + n * rounds)) ∧ visited.length = n * rounds := by
  induction rounds generalizing k with
  | zero => exact ⟨[], .nil _, rfl⟩
  | succ rounds ih =>
    obtain ⟨first, hfirst, hlen⟩ := hround k
    obtain ⟨later, hlater, hlen'⟩ := ih (k + n)
    have hcount : k + n * (rounds + 1) = k + n + n * rounds := by
      rw [Nat.mul_succ]
      omega
    refine ⟨first ++ later, ?_, ?_⟩
    · rw [hcount]
      exact hfirst.append hlater
    · rw [List.length_append, hlen, hlen', Nat.mul_succ]
      omega

/-- No run goes on where one of them stops. -/
theorem Run.length_le_of_stopped {task : Task} {m last a m' : Machine w} {visited visited' : List (Machine w)}
    {reason : StopReason} {fault : Option Fault} (h : Run task m visited last)
    (hstop : last.step task = .stopped m' reason fault) (h' : Run task m visited' a) :
    visited'.length ≤ visited.length := by
  apply Nat.le_of_not_lt
  intro hlonger
  obtain ⟨later, rfl, hlater⟩ := h.extends h' (Nat.le_of_lt hlonger)
  cases hlater with
  | nil =>
    rw [List.append_nil] at hlonger
    exact Nat.lt_irrefl _ hlonger
  | cons hstep => cases hstep.symm.trans hstop

/-- Every run gets to a machine on the way to where one of them stops. -/
theorem Run.mem_of_stopped {task : Task} {m last a m' : Machine w} {visited visited' : List (Machine w)}
    {reason : StopReason} {fault : Option Fault} (h : Run task m visited last)
    (hstop : last.step task = .stopped m' reason fault) (h' : Run task m visited' a) : a ∈ visited ++ [last] := by
  obtain ⟨later, rfl, hlater⟩ := h'.extends h (h.length_le_of_stopped hstop h')
  cases hlater with
  | nil => exact List.mem_append_right _ (List.mem_singleton_self _)
  | cons => exact List.mem_append_left _ (List.mem_append_right _ (List.mem_cons_self ..))

theorem steps_of_running {task : Task} {m m' : Machine w} (h : m.step task = .running m') :
    m'.steps = m.steps + 1 := (Run.single h).steps_eq

/-- A step that stops counts an instruction if it executes one, or if the signal keeps it from doing so. -/
theorem steps_of_stopped {task : Task} {m m' : Machine w} {reason : StopReason} {fault : Option Fault}
    (h : m.step task = .stopped m' reason fault) :
    ((m.due task ≠ none ∨ reason = .interrupted) ∧ m'.steps = m.steps + 1) ∨
      (m.due task = none ∧ reason ≠ .interrupted ∧ m'.steps = m.steps) := by
  have hexecuted {byte : UInt8} (hdue : m.due task = some byte) : m.due task ≠ none := by simp [hdue]
  rcases stop_cases h with ⟨hend, hf⟩ | ⟨n, given, hgive, habort⟩
  · rw [machine_of_finish hf]
    refine .inr ⟨by simp [due, hend], ?_, rfl⟩
    rcases finish_cases m with ⟨-, hm⟩ | ⟨text, -, hm⟩ <;> rw [hm] at hf <;>
      exact (Progress.stopped.inj hf).2.1 ▸ (by decide)
  · rw [(machine_of_abort habort).1]
    cases hgive with
    | spent _ hspent => exact .inr ⟨by simp [due, hspent], by decide, rfl⟩
    | interrupted => exact .inl ⟨.inr rfl, rfl⟩
    | writing hdue => exact .inl ⟨.inl (hexecuted hdue), rfl⟩
    | flushing hdue => exact .inl ⟨.inl (hexecuted hdue), rfl⟩
    | reading hdue => exact .inl ⟨.inl (hexecuted hdue), rfl⟩
    | unrecorded hdue => exact .inl ⟨.inl (hexecuted hdue), rfl⟩
    | stray hdue => exact .inl ⟨.inl (hexecuted hdue), rfl⟩

/-- Along a run the count grows with every instruction. -/
theorem Run.steps_lt_of_mem {task : Task} {m m' n : Machine w} {visited : List (Machine w)}
    (h : Run task m visited m') (hn : n ∈ visited) : n.steps < m'.steps := by
  induction h with
  | nil => cases hn
  | @cons k k' _ _ hstep hrun ih =>
    rcases List.mem_cons.mp hn with rfl | hn
    · have := steps_of_running hstep
      have := hrun.steps_eq
      omega
    · exact ih hn

/-- A run that has an instruction to execute next halts with that instruction counted, if at all. -/
theorem Run.steps_lt_of_halts {task : Task} {m last : Machine w} {visited : List (Machine w)} {h : Halt w}
    (hrun : Run task m visited last) (hdue : last.due task ≠ none) (hquiet : m.signal.isRaised = false)
    (hh : Halts task m h) : last.steps < h.result.steps := by
  obtain ⟨fuel, hfuel⟩ := hh
  rw [launch_eq hquiet] at hfuel
  have hlong : visited.length < fuel := by
    apply Nat.lt_of_not_le
    intro hshort
    rw [hrun.run_short hshort] at hfuel
    cases hfuel
  obtain ⟨left, rfl⟩ := Nat.exists_eq_add_of_le (Nat.le_of_lt hlong)
  rw [hrun.run_add] at hfuel
  obtain ⟨later, final, -, hlater, hstop⟩ := run_eq_some_iff.mp hfuel
  have hcount := steps_of_stopped hstop
  have hsteps := hlater.steps_eq
  show last.steps < h.machine.steps
  cases hlater with
  | nil =>
    rcases hcount with ⟨-, hcount⟩ | ⟨hnone, -⟩
    · omega
    · exact absurd hnone hdue
  | cons =>
    rw [List.length_cons] at hsteps
    omega

end Machine
end TapeMachine
