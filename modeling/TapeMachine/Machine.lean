import TapeMachine.Brackets
import TapeMachine.Instruction
import TapeMachine.Options
import TapeMachine.Signal
import TapeMachine.Stack
import TapeMachine.Stream.Input
import TapeMachine.Stream.Outbox
import TapeMachine.Tape

/-! The machine that runs a program on a tape.

`step` executes one byte of the program, or ends the run. A loop is entered by pushing its opening
position; its closing bracket pops that position and, if the current cell is not zero, goes back to
it. The jump table is consulted only to skip a loop. Output is collected and flushed before every
input and at the end. The step limit is tested before an instruction is counted, the signal after
every 4096th one is counted and before it is executed. `run` repeats `step`, with a bound on the
number of repetitions because a program need not end.

The counters of instructions and bytes have no bound: a run is taken to be shorter than 2 ^ 63 steps, so
that they stay within a machine word. -/
namespace TapeMachine

/-- Why a run stopped. -/
inductive StopReason
  | finished
  | failed
  | interrupted
  | stepLimit
  deriving DecidableEq, Repr

def StopReason.name : StopReason → String
  | .finished => "end"
  | .failed => "error"
  | .interrupted => "interrupted"
  | .stepLimit => "step_limit"

/-- The name of the stop reason with a given number. -/
def StopReason.nameOfCode (code : Int) : String :=
  if code = 0 then StopReason.finished.name
  else if code = 1 then StopReason.failed.name
  else if code = 2 then StopReason.interrupted.name
  else if code = 3 then StopReason.stepLimit.name
  else "unknown(" ++ toString code ++ ")"

/-- What a run amounted to. -/
structure Result where
  steps : Nat := 0
  read : Nat := 0
  written : Nat := 0
  stop : StopReason := .finished
  deriving DecidableEq, Repr

/-- What a machine is to run, and under which rules. -/
structure Task where
  program : Program
  jumps : JumpTable
  eof : EofPolicy := .unchanged
  limit : Option Nat := none

structure Machine (w : Nat) where
  tape : Tape w
  input : Input
  outbox : Outbox
  signal : Signal := .clear
  /-- The position of the next byte. -/
  ip : Nat := 0
  /-- The opening positions of the loops entered, innermost on top. -/
  loops : Stack Nat := {}
  /-- The number of instructions counted. -/
  steps : Nat := 0
  /-- The number of bytes taken from the input. -/
  read : Nat := 0
  /-- The number of bytes put into the outbox. -/
  written : Nat := 0

/-- What one step leads to. -/
inductive Progress (w : Nat)
  | running (machine : Machine w)
  | stopped (machine : Machine w) (reason : StopReason) (fault : Option Fault)

namespace Machine
variable {w : Nat}

/-- The number of instructions between two looks at the signal. -/
def signalInterval : Nat := 4096

/-- Lets the outbox do something, noting a cancellation by the calls made on its sink. -/
def send (m : Machine w) (act : Outbox → Outbox) : Machine w :=
  let calls := m.outbox.calls
  let m := { m with outbox := act m.outbox }
  { m with signal := m.signal.cancelIf (m.outbox.hasCancelledSince calls) }

def flush (m : Machine w) : Machine w := m.send Outbox.flush

/-- Stops with a fault. What was collected is still sent; a failure to do so is told as well, unless
the fault already is one of input or output. -/
def abort (m : Machine w) (reason : StopReason) (fault : Fault) : Progress w :=
  let m := m.flush
  match m.outbox.failure with
  | some text =>
    .stopped m reason
      (some (if fault.isA .io then fault else .both fault (.caused .io (.flushing text))))
  | none => .stopped m reason (some fault)

/-- Ends the run behind the last byte. -/
def finish (m : Machine w) : Progress w :=
  let m := m.flush
  match m.outbox.failure with
  | some text => .stopped m .failed (some (.caused .io (.flushing text)))
  | none => .stopped m .finished none

/-- Goes on with the next byte. -/
def proceed (m : Machine w) : Progress w := .running { m with ip := m.ip + 1 }

def output (m : Machine w) : Progress w :=
  let byte := m.tape.byte
  let m := m.send (·.put byte)
  match m.outbox.failure with
  | some text => m.abort .failed (.caused .io (.writing m.ip text))
  | none => { m with written := m.written + 1 }.proceed

/-- Applies the policy for an input that has ended. -/
def applyEof (policy : EofPolicy) (t : Tape w) : Tape w :=
  match policy with
  | .zero => t.setByte 0
  | .max => t.setMax
  | .unchanged | .unknown _ => t

/-- Takes one byte from the input, noting a cancellation by the calls made on its source. -/
def take (m : Machine w) : Except Fault UInt8 × Machine w :=
  let calls := m.input.calls
  let (answer, input) := m.input.readByte
  (answer, { m with input, signal := m.signal.cancelIf (input.hasCancelledSince calls) })

def accept (eof : EofPolicy) (m : Machine w) : Progress w :=
  let m := m.flush
  match m.outbox.failure with
  | some text => m.abort .failed (.caused .io (.flushingAt m.ip text))
  | none =>
    match m.take with
    | (.ok b, m) => { m with tape := m.tape.setByte b, read := m.read + 1 }.proceed
    | (.error fault, m) =>
      if fault.isA .endOfInput then { m with tape := applyEof eof m.tape }.proceed
      else m.abort .failed (.caused .io (.reading m.ip fault.message))

/-- Enters a loop, or skips it if the current cell is zero. -/
def enter (jumps : JumpTable) (m : Machine w) : Progress w :=
  if m.tape.isZero then
    match jumps.partner? m.ip with
    | some j => .running { m with ip := j + 1 }
    | none => m.abort .failed (.caused .unbalancedBrackets (.unrecordedOpen m.ip))
  else { m with loops := m.loops.push m.ip }.proceed

/-- Leaves a loop, or goes back to its opening bracket if the current cell is not zero. -/
def leave (m : Machine w) : Progress w :=
  match m.loops.pop with
  | (none, _) => m.abort .failed (.caused .unbalancedBrackets (.strayClose m.ip))
  | (some start, loops) =>
    if m.tape.isZero then { m with loops }.proceed else .running { m with loops, ip := start }

/-- Executes one byte. -/
def execute (task : Task) (byte : UInt8) (m : Machine w) : Progress w :=
  match Instruction.ofByte? byte with
  | some .right => { m with tape := m.tape.moveRight }.proceed
  | some .left => { m with tape := m.tape.moveLeft }.proceed
  | some .increment => { m with tape := m.tape.increment }.proceed
  | some .decrement => { m with tape := m.tape.decrement }.proceed
  | some .output => m.output
  | some .input => m.accept task.eof
  | some .loop => m.enter task.jumps
  | some .endLoop => m.leave
  | none => m.proceed

/-- Whether the limit allows no further instruction. -/
def isSpent (limit : Option Nat) (m : Machine w) : Bool :=
  match limit with
  | some limit => decide (limit ≤ m.steps)
  | none => false

def step (task : Task) (m : Machine w) : Progress w :=
  match task.program[m.ip]? with
  | none => m.finish
  | some byte =>
    if m.isSpent task.limit then
      m.abort .stepLimit (.caused .stepLimit (.stepsExecuted m.steps m.ip))
    else
      let looked := m.signal
      let m := { m with steps := m.steps + 1, signal := m.signal.advance }
      if m.steps % signalInterval = 0 ∧ looked.isRaised then
        m.abort .interrupted (.caused .interrupted (.afterSteps m.steps m.ip))
      else m.execute task byte

/-- Starts: a signal that is raised already stops the run at once. -/
def start (m : Machine w) : Progress w :=
  match m.signal with
  | .raised reason => m.abort .interrupted (.caused .interrupted (.cancelled reason))
  | .clear | .pending .. => .running m

/-- A machine that has stopped. -/
structure Halt (w : Nat) where
  machine : Machine w
  reason : StopReason
  fault : Option Fault

/-- The result of the run that has stopped. -/
def Halt.result (h : Halt w) : Result :=
  ⟨h.machine.steps, h.machine.read, h.machine.written, h.reason⟩

/-- Takes at most `fuel` steps. -/
def run (task : Task) : Nat → Machine w → Option (Halt w)
  | 0, _ => none
  | fuel + 1, m =>
    match m.step task with
    | .running m => run task fuel m
    | .stopped m reason fault => some ⟨m, reason, fault⟩

/-- Runs a task from the start. -/
def launch (task : Task) (fuel : Nat) (m : Machine w) : Option (Halt w) :=
  match m.start with
  | .running m => run task fuel m
  | .stopped m reason fault => some ⟨m, reason, fault⟩

end Machine
end TapeMachine
