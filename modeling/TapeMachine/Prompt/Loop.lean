import TapeMachine.Prompt.Prompter

/-! The prompt loop: one line, one turn.

The loop asks for a line, runs it as a turn of its session and asks again. A turn that fails is
reported and does not end the loop; neither does an aborted prompt. An empty line ends it, and so do
the end of the lines, any other fault of the line source and a raised signal. What the loop says and
does is given as a list of events. -/
namespace TapeMachine.Prompt

/-- What is told after a turn. -/
structure Report where
  result : Result
  fault : Option Fault
  /-- The session after the turn. -/
  snapshot : Snapshot
  /-- The number of bytes delivered so far. -/
  delivered : Nat
  deriving DecidableEq, Repr

inductive Event
  /-- An answer of the line source. -/
  | asked (answer : Except Fault (List UInt8))
  /-- A text for the user. -/
  | message (text : String)
  | record (record : Log.Record)
  | turned (report : Report)

/-- Text in colour, if colours are on. -/
def coloured (on : Bool) (code text : String) : String :=
  if on then "\x1b[" ++ code ++ "m" ++ text ++ "\x1b[0m" else text

structure Loop where
  prompt : String := ""
  greeting : String := ""
  /-- Whether messages are coloured. -/
  colours : Bool := false
  /-- The least level of the loop's own records. -/
  threshold : Option Log.Level := none
  /-- The signal of the turn with the given number, from the one of the session. -/
  turnSignal : Int → Signal → Signal := fun _ signal => signal
  /-- The signal of the session after a turn. -/
  signalAfter : Turn → Signal → Signal := fun _ signal => signal
  /-- Whether a read for a line can cancel the session. -/
  heedsReads : Bool := false

/-- How far a loop has come. -/
structure Progress where
  session : Session
  source : Prompter
  signal : Signal
  /-- The events so far, last first. -/
  events : List Event := []

/-- A loop that has ended. -/
structure Ended where
  session : Session
  source : Prompter
  signal : Signal
  events : List Event
  fault : Option Fault

/-- What one round leads to. -/
inductive Round
  | again (p : Progress)
  | ended (p : Progress) (fault : Option Fault)
  /-- A turn that did not end. -/
  | stuck

namespace Loop

/-- The prompt that is shown; an empty one stands for the usual one. -/
def shownPrompt (l : Loop) : String := if l.prompt = "" then "bf> " else l.prompt

def greet (l : Loop) : List Event :=
  if l.greeting = "" then [] else [.message (coloured l.colours "90" l.greeting ++ "\n")]

def warning (l : Loop) : List Event :=
  [.message "\n",
    .message (coloured l.colours "33" "Submit an empty line to leave the session." ++ "\n")]

def complaint (l : Loop) (fault : Fault) : Event :=
  .message (coloured l.colours "31;1" ("Error: " ++ fault.message ++ "\n"))

/-- The loop's record of why it ends. -/
def farewell (l : Loop) (message : String) (s : Session) : List Event :=
  (Log.admitted l.threshold [⟨Log.Level.debug, message, [("turns", .number s.turns)]⟩]).map .record

/-- The number of bytes that the sink of a session has accepted. -/
def deliveredBy (s : Session) : Nat := (s.sink.map (·.delivered.size)).getD 0

def report (t : Turn) : Report :=
  ⟨t.result, t.fault, t.session.snapshot, deliveredBy t.session⟩

/-- The events of a turn. -/
def turnEvents (l : Loop) (t : Turn) : List Event :=
  t.records.map .record ++ (t.fault.map l.complaint).toList ++ [.turned (report t)]

/-- Adds events. -/
def tell (p : Progress) (events : List Event) : Progress :=
  { p with events := events.reverse ++ p.events }

/-- Runs a line that is not empty. -/
def obey (l : Loop) (fuel : Nat) (p : Progress) (line : List UInt8) : Round :=
  let signal := l.turnSignal (Word.wrap (p.session.turns + 1)) p.signal
  match p.session.turn fuel signal line.toArray with
  | none => .stuck
  | some t =>
    .again (tell { p with session := t.session, signal := l.signalAfter t p.signal }
      (l.turnEvents t))

/-- Asks for a line. -/
def consult (l : Loop) (p : Progress) : Except Fault (List UInt8) × Progress :=
  let calls := p.session.input.calls
  let (answer, source, session) := p.source.ask p.session l.shownPrompt
  let cancels := l.heedsReads && session.input.hasCancelledSince calls
  (answer,
    tell { p with source, session, signal := p.signal.cancelIf cancels } [.asked answer])

/-- One round: a line and its turn. -/
def round (l : Loop) (fuel : Nat) (p : Progress) : Round :=
  if p.signal.isRaised then .ended p none
  else
    match l.consult p with
    | (.error fault, p) =>
      if fault.isA .endOfInput then
        .ended (tell p (l.farewell "line source exhausted" p.session)) none
      else if fault.isA .aborted then .again (tell p l.warning)
      else .ended p (some (.during "reading command" fault))
    | (.ok [], p) =>
      .ended (tell p (l.farewell "empty command, ending session" p.session)) none
    | (.ok line, p) => l.obey fuel p line

/-- At most `rounds` rounds. -/
def repeatRounds (l : Loop) (fuel : Nat) : Nat → Progress → Option Ended
  | 0, _ => none
  | rounds + 1, p =>
    match l.round fuel p with
    | .again p => l.repeatRounds fuel rounds p
    | .ended p fault => some ⟨p.session, p.source, p.signal, p.events.reverse, fault⟩
    | .stuck => none

/-- Runs the loop to its end, with at most `fuel` steps for each turn. -/
def run (l : Loop) (fuel : Nat) (s : Session) (source : Prompter) (signal : Signal) :
    Option Ended :=
  l.repeatRounds fuel (source.bound s + 1) { session := s, source, signal, events := l.greet }

end Loop
end TapeMachine.Prompt
