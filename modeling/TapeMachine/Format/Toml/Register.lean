import TapeMachine.Format.Toml.Trouble

/-! Which names a TOML text has given so far.

A key can be given once, a table can be opened once, and what a table that was opened holds cannot be
added to from outside of it. -/
namespace TapeMachine.Format.Toml

/-- A name that was given, by its path from the outermost table on. -/
structure Entry where
  path : List String
  kind : Kind
  /-- Whether it stands for a table that cannot be opened or added to any more. -/
  closed : Bool
  /-- Whether it was given by a key of the table that is open. -/
  byKey : Bool
  deriving DecidableEq, Repr

structure Register where
  entries : List Entry := []
  /-- The table that is open. -/
  current : List String := []
  deriving DecidableEq, Repr

namespace Register

def find? (r : Register) (path : List String) : Option Entry :=
  r.entries.find? fun e => e.path = path

def add (r : Register) (e : Entry) : Register := { r with entries := e :: r.entries }

/-- Changes the entry of a path. -/
def change (r : Register) (path : List String) (f : Entry → Entry) : Register :=
  { r with entries := r.entries.map fun e => if e.path = path then f e else e }

/-- Whether an entry stands somewhere inside of a path. -/
def Entry.isInside (path : List String) (e : Entry) : Bool :=
  path.isPrefixOf e.path && e.path ≠ path

/-- Closes what keys have given in the table that was open. -/
def leave (r : Register) : Register :=
  { r with entries := r.entries.map fun e =>
      if Entry.isInside r.current e && e.byKey then { e with closed := true, byKey := false } else e }

/-- Goes down to the table in which the last name of a path stands. -/
def descend (r : Register) (before : List String) : List String → Except Trouble Register
  | [] => .ok r
  | [_] => .ok r
  | name :: rest =>
    let path := before ++ [name]
    match r.find? path with
    | none => descend (r.add ⟨path, .table, false, false⟩) path rest
    | some e => if e.kind = .value then .error (.noTable name e.kind) else descend r path rest

/-- Opens a table. -/
def openTable (r : Register) (path : List String) : Except Trouble Register := do
  let r ← r.leave.descend [] path
  let name := path.getLast?.getD ""
  match r.find? path with
  | none => return { r.add ⟨path, .table, true, false⟩ with current := path }
  | some e =>
    if e.kind ≠ .table then throw (.tableExpected name e.kind)
    if e.closed then throw (.repeatedTable name)
    return { r.change path fun e => { e with closed := true } with current := path }

/-- Opens the next table of a list of tables. -/
def openNext (r : Register) (path : List String) : Except Trouble Register := do
  let r ← r.leave.descend [] path
  let name := path.getLast?.getD ""
  match r.find? path with
  | none => return { r.add ⟨path, .tables, true, false⟩ with current := path }
  | some e =>
    if e.kind ≠ .tables then throw (.tablesExpected name e.kind)
    return { r with
      entries := r.entries.filter fun e => !Entry.isInside path e
      current := path }

/-- Gives the names of a key, from those in `before` on. -/
def giveKey (r : Register) (before : List String) : List String → Except Trouble Register
  | [] => .ok (r.change before fun e => { e with kind := .value })
  | name :: rest =>
    let path := before ++ [name]
    match r.find? path with
    | none => giveKey (r.add ⟨path, .table, false, true⟩) path rest
    | some e =>
      if rest.isEmpty then .error (.repeatedKey name)
      else if e.kind ≠ .table then .error (.noTable name e.kind)
      else if e.closed then .error (.closedTable name)
      else giveKey r path rest

end Register
end TapeMachine.Format.Toml
