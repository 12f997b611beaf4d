import TapeMachine.Inspect.Table
import TapeMachine.Session

/-! The viewer: a table of the cells around a centre that keys move along the tape. It never changes
the tape. -/
namespace TapeMachine.Inspect

inductive Key
  | left
  | right
  | up
  | down
  | pageUp
  | pageDown
  | home
  | escape
  | rune (c : Char)
  /-- A key without a meaning here. -/
  | other
  deriving DecidableEq, Repr

structure Viewer where
  store : Store
  center : Int
  radius : Int := 16
  title : String
  /-- What the program wrote. -/
  output : List UInt8
  summary : String
  /-- The table as last drawn; empty before the first time. -/
  table : Sheet := []

namespace Viewer

/-- What is told about a run. -/
def summarize (r : Result) : String :=
  toString r.steps ++ " steps, " ++ toString r.read ++ " bytes read, " ++ toString r.written
    ++ " bytes written, stopped: " ++ r.stop.name

/-- A viewer on the tape of a session, centred on the pointer. -/
def create (s : Session) (title : String) (output : List UInt8) (result : Option Result) : Viewer :=
  { store := s.store
    center := s.store.pointer
    title
    output
    summary := (result.map summarize).getD "" }

/-- Draws the table anew. -/
def refresh (v : Viewer) : Viewer :=
  { v with
    table := v.table.fill ((window v.store v.center v.radius).getD []) v.store.width }

/-- Moves the centre by `delta` cells around the ring. -/
def scroll (v : Viewer) (delta : Int) : Viewer :=
  { v with center := v.store.tape.address (Word.wrap (v.center + delta)) }.refresh

/-- Moves the centre back to the pointer. -/
def goHome (v : Viewer) : Viewer := { v with center := v.store.pointer }.refresh

/-- Whether a key ends the viewer. -/
def quits : Key → Bool
  | .escape => true
  | .rune c => c == 'q'
  | _ => false

/-- Reacts to a key, and hands back one that has no meaning here. -/
def press (v : Viewer) (key : Key) : Option Key × Viewer :=
  match key with
  | .left | .up => (none, v.scroll (-1))
  | .right | .down => (none, v.scroll 1)
  | .pageUp => (none, v.scroll (-v.radius))
  | .pageDown => (none, v.scroll v.radius)
  | .home => (none, v.goHome)
  | .escape | .rune _ | .other => (if quits key then none else some key, v)

/-- What the status line shows. -/
def status (v : Viewer) : String := v.summary ++ "  [arrows: scroll, home: pointer, q: quit]"

/-- The title above the table. -/
def tableTitle (v : Viewer) : String := " " ++ v.title ++ " "

/-- Reacts to keys until one of them quits. -/
def pressAll (v : Viewer) (keys : List Key) : Viewer :=
  (keys.takeWhile fun key => !quits key).foldl (fun v key => (v.press key).2) v

/-- Shows the viewer and reacts to keys until one of them quits. -/
def run (v : Viewer) (keys : List Key) : Viewer := v.refresh.pressAll keys

end Viewer
end TapeMachine.Inspect
