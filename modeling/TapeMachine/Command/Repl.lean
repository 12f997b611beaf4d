import TapeMachine.Command.Run
import TapeMachine.Prompt.Loop

/-! The prompt loop on a standard input that is not a terminal.

Lines and the input of programs come from one buffered stream, and no prompts are shown. A terminal is left out:
there the loop greets, shows its prompt and takes its lines from a line editor. -/
namespace TapeMachine.Command

/-- The loop for the given settings. A read that cancels the session does so between turns too. -/
def loop (s : Settings) (book : Logbook) : Prompt.Loop :=
  { prompt := s.prompt
    threshold := some book.threshold
    signalAfter := fun t _ => t.signal
    heedsReads := true }

/-- What an event of the loop leaves in the world. -/
def heed (bench : Workbench) (w : World) : Prompt.Event → World
  | .asked _ => w
  | .message text => w.tell text
  | .record record => w.noteAll bench.book [record]
  | .turned report => bench.dump w report.snapshot

/-- Runs the lines of the standard input, one turn each. -/
def repl (fuel : Nat) (s : Settings) (w : World) : Option Outcome :=
  match Workbench.start s w w.input.buffer w.output with
  | (.error fault, w) => some (w.fail fault)
  | (.ok bench, w) =>
    ((loop s bench.book).run fuel bench.session (.shared none) w.signal).map fun e =>
      let w := e.events.foldl (heed bench) { w with signal := e.signal }
      let bench := { bench with session := e.session }
      let (closing, w) := bench.close w
      (settle w e.session).finish e.fault closing

end TapeMachine.Command
