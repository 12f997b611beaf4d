import TapeMachine.Fault
import TapeMachine.Ordered
import TapeMachine.Snapshot
import TapeMachine.Text.Decimal
import TapeMachine.Yaml.Decoding
import TapeMachine.Yaml.Document
import TapeMachine.Yaml.Printer

/-! Snapshots as documents.

A snapshot is written with one line for each field and one inner line for each cell. Reading takes the
fields it knows and leaves out all others; a value that does not fit is complained about, and the
fields that fit are taken all the same. -/
namespace TapeMachine.Snapshot

/-! ### Writing -/

/-- A field, with a value that ends its line. -/
def field (name : String) (value : List Char) : List Char := name.toList ++ ':' :: ' ' :: value

def fieldLine (name : String) (value : List Char) : List Char := field name (value ++ ['\n'])

def cellLine (cell : Int × Nat) : List Char :=
  Yaml.Printer.indentation ++ Text.Decimal.signed cell.1 ++ ':' :: ' ' :: Text.Decimal.digits cell.2
    ++ ['\n']

/-- The lines of the cells; without cells there are none. -/
def cellLines (cells : List (Int × Nat)) : List Char :=
  if cells.isEmpty then [] else "cells:\n".toList ++ cells.flatMap cellLine

/-- The document of a snapshot. -/
def render (s : Snapshot) : List Char :=
  fieldLine "tape_size" (Text.Decimal.signed s.tapeSize)
    ++ fieldLine "cell_width" (Text.Decimal.signed s.cellWidth)
    ++ field "eof" (Yaml.Printer.text s.eof)
    ++ fieldLine "pointer" (Text.Decimal.signed s.pointer)
    ++ fieldLine "turns" (Text.Decimal.signed s.turns)
    ++ cellLines s.cells

/-- The bytes of the document. -/
def encode (s : Snapshot) : List UInt8 := Text.Utf8.encode s.render

/-! ### Reading -/

/-- Cells that are being read. -/
structure Cells where
  cells : List (Int × Nat) := []
  /-- Whether a mapping has been begun. -/
  begun : Bool := false
  /-- Whether the mapping that is being read is the first one. -/
  first : Bool := true
  deriving DecidableEq, Repr

namespace Cells

def start (c : Cells) : Cells := { c with begun := true, first := !c.begun }

/-- Sets a cell. A cell whose value is nothing is zero, unless it has been set before. -/
def put (index : Int) (site : Yaml.Site) (entry : Yaml.Node × Yaml.Node) (p : Yaml.Progress)
    (c : Cells) : Yaml.Progress × Cells :=
  match Yaml.Take.unsigned site entry.2 p with
  | (p, some value) => (p, { c with cells := Ordered.insert index value c.cells })
  | (p, none) =>
    if !p.failed && site.document.tagOf entry.2 == "!!null"
        && (c.first || (c.cells.lookup index).isNone) then
      (p, { c with cells := Ordered.insert index 0 c.cells })
    else (p, c)

def target : Yaml.Target Int Cells where
  start := start
  key := Yaml.Take.word
  toValue := .integer
  put := put

/-- Takes cells from a node. -/
def take (site : Yaml.Site) (n : Yaml.Node) (p : Yaml.Progress) (cells : List (Int × Nat)) :
    Yaml.Progress × List (Int × Nat) :=
  let name := "map[int]uint64"
  let (p, site, n) := site.enter n p
  if p.failed then (p, cells)
  else
    match n with
    | .mapping _ _ entries =>
      match Yaml.Node.repeatedKeys entries with
      | [] =>
        let depth := site.document.depth
        let f :=
          Yaml.Filling.takeEntries (Yaml.Value.take depth) target depth site entries
            { progress := p, state := { cells } }
        (f.progress, f.state.cells)
      | complaints => (p.complain complaints, cells)
    | .scalar _ tag text =>
      match Yaml.meaning tag text with
      | .error trouble => (p.fail trouble, cells)
      | .ok .null => (p, [])
      | .ok _ => (p.complain [n.mismatch name], cells)
    | _ => (p.complain [n.mismatch name], cells)

end Cells

/-- A snapshot that is being read. -/
structure Fields where
  snapshot : Snapshot := {}
  /-- The fields that the mapping at hand has set. -/
  done : List String := []
  deriving DecidableEq, Repr

namespace Fields

/-- The name of snapshots in complaints. -/
def typeName : String := "brainfuck.State"

def names : List String := ["tape_size", "cell_width", "eof", "pointer", "turns", "cells"]

/-- Sets a field to what is taken from a node, if that is something. -/
def store {α : Type} (taken : Yaml.Progress × Option α) (s : Snapshot) (set : α → Snapshot) :
    Yaml.Progress × Snapshot :=
  match taken with
  | (p, some a) => (p, set a)
  | (p, none) => (p, s)

/-- Takes the field of the given name from a node. -/
def takeField (name : String) (site : Yaml.Site) (n : Yaml.Node) (p : Yaml.Progress)
    (s : Snapshot) : Yaml.Progress × Snapshot :=
  if name = "tape_size" then store (Yaml.Take.word site n p) s fun i => { s with tapeSize := i }
  else if name = "cell_width" then store (Yaml.Take.word site n p) s fun i => { s with cellWidth := i }
  else if name = "eof" then store (Yaml.Take.text site n p) s fun t => { s with eof := t }
  else if name = "pointer" then store (Yaml.Take.word site n p) s fun i => { s with pointer := i }
  else if name = "turns" then store (Yaml.Take.word site n p) s fun i => { s with turns := i }
  else
    let (p, cells) := Cells.take site n p s.cells
    (p, { s with cells })

/-- Sets a field, once in each mapping. Other entries are left out. -/
def put (name : String) (site : Yaml.Site) (entry : Yaml.Node × Yaml.Node) (p : Yaml.Progress)
    (f : Fields) : Yaml.Progress × Fields :=
  if !names.contains name then (p, f)
  else if f.done.contains name then
    (p.complain [.repeatedField entry.1.line name typeName], f)
  else
    let (p, snapshot) := takeField name site entry.2 p f.snapshot
    (p, { snapshot, done := name :: f.done })

def target : Yaml.Target String Fields where
  start := fun f => { f with done := [] }
  key := Yaml.Take.text
  toValue := .text
  put := put

/-- Takes a snapshot from the outermost value of a document. -/
def take (document : Yaml.Document) : Yaml.Progress × Snapshot :=
  let (p, site, n) := ({ document : Yaml.Site }).enter document.root {}
  match n with
  | .mapping _ _ entries =>
    match Yaml.Node.repeatedKeys entries with
    | [] =>
      let f :=
        Yaml.Filling.takeEntries (Yaml.Value.take document.depth) target document.depth site entries
          { progress := p, state := {} }
      (f.progress, f.state.snapshot)
    | complaints => (p.complain complaints, {})
  | .scalar _ tag text =>
    match Yaml.meaning tag text with
    | .error trouble => (p.fail trouble, {})
    | .ok .null => (p, {})
    | .ok _ => (p.complain [n.mismatch typeName], {})
  | _ => (p.complain [n.mismatch typeName], {})

end Fields

/-- The snapshot that a document holds, as far as it can be read, and what is wrong with it. -/
def parse (bytes : List UInt8) : Snapshot × Option Fault :=
  match Yaml.read bytes with
  | .error trouble => ({}, some (.told trouble.message))
  | .ok none => ({}, none)
  | .ok (some document) =>
    let (p, snapshot) := Fields.take document
    (snapshot, p.trouble?.map fun trouble => .told trouble.message)

end TapeMachine.Snapshot
