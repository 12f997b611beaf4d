import TapeMachine.Disk
import TapeMachine.Path
import TapeMachine.Prompt.History

/-! A terminal that cannot edit lines.

Prompts go to the standard output and lines come from the standard input. The lines are kept as a
history, which is read from a file at the beginning and written back at the end. -/
namespace TapeMachine.Prompt

structure Terminal where
  feed : Feed
  history : History := []

namespace Terminal

/-- Where the history is kept for a home directory; an empty one stands for none. -/
def historyFile (home : String) : String :=
  if home = "" then ".bf_history" else Path.join home ".bf_history"

/-- A terminal with the history of a file. Without a name there is no history, and a file that cannot
be read counts as empty. -/
def start (disk : Disk) (file : String) (feed : Feed) : Terminal :=
  if file = "" then { feed }
  else
    match disk.read file with
    | .ok content => { feed, history := History.load content }
    | .error _ => { feed }

/-- Writes the history back. -/
def finish (t : Terminal) (disk : Disk) (file : String) : Except Fault Disk :=
  if file = "" then .ok disk else disk.write file t.history.save

end Terminal
end TapeMachine.Prompt
