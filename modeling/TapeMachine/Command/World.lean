import TapeMachine.Disk
import TapeMachine.Inspect.Viewer
import TapeMachine.Text.Utf8

/-! What a command works on and what it leaves. -/
namespace TapeMachine.Command

structure World where
  disk : Disk
  input : Input
  output : Sink := {}
  /-- What has been written to the standard error. -/
  messages : String := ""
  signal : Signal := .clear
  /-- What closing a log file fails with, if it does. -/
  logFailure : Option Fault := none

/-- What a command leads to. -/
structure Outcome where
  code : Nat
  world : World
  /-- The viewer that was shown, if one was. -/
  viewer : Option Inspect.Viewer := none

/-- Where records go. -/
structure Logbook where
  threshold : Log.Level
  file : String

/-- Opens a log for the records from the named level up. Its file, if it has one, is made when it is
missing. -/
def Logbook.start (level file : String) (disk : Disk) : Except Fault (Logbook × Disk) :=
  match Log.Level.ofText level with
  | .error fault => .error fault
  | .ok threshold =>
    if file = "" then .ok (⟨threshold, ""⟩, disk)
    else
      match disk.append file [] with
      | .error fault => .error (.during "opening log file" fault)
      | .ok disk => .ok (⟨threshold, file⟩, disk)

namespace World

/-- Writes to the standard error. -/
def tell (w : World) (text : String) : World := { w with messages := w.messages ++ text }

/-- Shows a record and adds it to the log file, if there is one. -/
def note (w : World) (book : Logbook) (record : Log.Record) : World :=
  let w := w.tell record.line
  if book.file = "" then w
  else
    match w.disk.append book.file (Text.Utf8.encode record.json.toList) with
    | .ok disk => { w with disk }
    | .error _ => w

/-- Shows and keeps the records of a high enough level. -/
def noteAll (w : World) (book : Logbook) (records : List Log.Record) : World :=
  (Log.admitted (some book.threshold) records).foldl (fun w record => w.note book record) w

/-- Closes the log. There is nothing to close without a file. -/
def closeLog (w : World) (book : Logbook) : Option Fault := if book.file = "" then none else w.logFailure

/-- Tells what a command failed with. -/
def complain (w : World) (fault : Fault) : World := w.tell ("Error: " ++ fault.message ++ "\n")

/-- Ends a command with a fault. -/
def fail (w : World) (fault : Fault) : Outcome := ⟨exitCode (some fault), w.complain fault, none⟩

/-- Ends a command, with the first fault there is. -/
def finish (w : World) (first second : Option Fault) : Outcome :=
  match first, second with
  | some fault, _ => w.fail fault
  | none, some fault => w.fail fault
  | none, none => ⟨0, w, none⟩

end World
end TapeMachine.Command
