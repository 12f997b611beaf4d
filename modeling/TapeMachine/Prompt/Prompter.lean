import TapeMachine.Prompt.Terminal
import TapeMachine.Session
import TapeMachine.Text.Control

/-! Where a prompt loop takes its lines from. -/
namespace TapeMachine.Prompt

inductive Prompter
  /-- Answers laid down beforehand; after the last one the input has ended. -/
  | script (answers : List (Except Fault (List UInt8)))
  /-- The buffered input of the session itself. Prompts are added to the text `written`, if there is
  one. -/
  | shared (written : Option String)
  | terminal (t : Terminal)

namespace Prompter

/-- Writes to the sink of a session without going through an outbox. -/
def writeDirectly (s : Session) (bytes : List UInt8) : Session :=
  if bytes.isEmpty then s else { s with sink := s.sink.map fun sink => (sink.write bytes.toArray).2 }

/-- Prompts on the terminal and reads a line. A prompt with characters that cannot be seen is
refused. A line that is not empty goes into the history. -/
def askTerminal (t : Terminal) (s : Session) (prompt : String) :
    Except Fault (List UInt8) × Terminal × Session :=
  if prompt.toList.any Text.isControl then (.error (.told "invalid prompt"), t, s)
  else
    let s := writeDirectly s (Text.Utf8.encode prompt.toList)
    match nextPiece t.feed with
    | (.error fault, feed) => (.error fault, { t with feed }, s)
    | (.ok (line, _), feed) =>
      (.ok line, ⟨feed, if line.isEmpty then t.history else t.history.remember line⟩, s)

/-- Asks for a line. -/
def ask (source : Prompter) (s : Session) (prompt : String) :
    Except Fault (List UInt8) × Prompter × Session :=
  match source with
  | .script [] => (.error (.bare .endOfInput), .script [], s)
  | .script (answer :: rest) => (answer, .script rest, s)
  | .shared written =>
    match s.input with
    | .buffered feed =>
      let (answer, r) := (LineReader.mk feed written).ask prompt
      (answer, .shared r.written, { s with input := .buffered r.feed })
    | _ => (.error (.bare .endOfInput), .shared (written.map (· ++ prompt)), s)
  | .terminal t =>
    let (answer, t, s) := askTerminal t s prompt
    (answer, .terminal t, s)

/-- More answers than the source can give before its end: every answer but the last ones takes an
entry of the script or a byte of the input. -/
def bound (source : Prompter) (s : Session) : Nat :=
  match source with
  | .script answers => answers.length + 1
  | .shared _ =>
    match s.input with
    | .buffered feed => feed.buffer.length + feed.source.data.length + 1
    | _ => 1
  | .terminal t => t.feed.buffer.length + t.feed.source.data.length + 1

end Prompter
end TapeMachine.Prompt
