import TapeMachine.Text.Base64
import TapeMachine.Value
import TapeMachine.Yaml.Node

/-! Taking values from the tree of a document.

A value that does not fit is complained about, and the rest is taken all the same; a trouble ends the
reading. What was taken before stays. Aliases are followed, but not into themselves, and a document
that consists of copies for the most part is given up. -/
namespace TapeMachine.Yaml

/-- How far the reading of a document has come. -/
structure Progress where
  complaints : List Complaint := []
  /-- How many values have been looked at. -/
  visits : Nat := 0
  /-- How many of them inside of aliases. -/
  copies : Nat := 0
  trouble : Option Trouble := none
  deriving DecidableEq, Repr

namespace Progress

def complain (p : Progress) (complaints : List Complaint) : Progress :=
  { p with complaints := p.complaints ++ complaints }

def fail (p : Progress) (t : Trouble) : Progress := { p with trouble := some t }

def failed (p : Progress) : Bool := p.trouble.isSome

/-- Whether too much of a document is copies: beyond 99 of a hundred values in a small document, and
beyond ten in one of four million. -/
def isExcessive (p : Progress) : Bool :=
  let least := 400000
  let most := 4000000
  let span := most - least
  100 < p.copies && 1000 < p.visits
    && (if p.visits ≤ least then 99 * p.visits < 100 * p.copies
      else if most ≤ p.visits then 10 * p.visits < 100 * p.copies
      else p.visits * (99 * span - 89 * (p.visits - least)) < 100 * span * p.copies)

/-- Counts a value. -/
def visit (p : Progress) (copied : Bool) : Progress :=
  let p := { p with visits := p.visits + 1, copies := p.copies + (if copied then 1 else 0) }
  if p.isExcessive then p.fail .tooManyCopies else p

/-- The trouble or the complaints of a reading that went wrong. -/
def trouble? (p : Progress) : Option Trouble :=
  match p.trouble, p.complaints with
  | some trouble, _ => some trouble
  | none, [] => none
  | none, complaints => some (.complaints complaints)

end Progress

/-- Where a reading stands: in which document, and inside of which aliases. -/
structure Site where
  document : Document
  following : List Nat := []

namespace Site

/-- Looks at a node. An alias leads to its value. -/
def enter (site : Site) (n : Node) (p : Progress) : Progress × Site × Node :=
  let p := p.visit (!site.following.isEmpty)
  match n with
  | .alias _ name number _ =>
    if p.failed then (p, site, n)
    else if site.following.contains number then (p.fail (.endless name), site, n)
    else
      (p.visit true, { site with following := number :: site.following }, site.document.resolve n)
  | _ => (p, site, n)

end Site

/-- Takes a value from a node; a node that has none of this kind gives nothing. -/
abbrev Take (α : Type) := Site → Node → Progress → Progress × Option α

/-! ### Scalars -/

/-- The types whose meaning is in the text. Values of other types are texts. -/
def resolvableTags : List String := ["!!bool", "!!int", "!!float", "!!null", "!!timestamp"]

/-- What a scalar of the given type means. -/
def meaning (tag text : String) : Except Trouble Scalar :=
  if tag = "!!binary" then
    match Text.Base64.decode? text.toList with
    | some bytes => .ok (.text (String.ofList (Text.Utf8.decode bytes)))
    | none => .error .wrongBase64
  else if !resolvableTags.contains tag then .ok (.text text)
  else
    let found := Scalar.meaning (tag == "!!timestamp") text
    if found.tag = tag then .ok found
    else
      match found, tag with
      | .integer i, "!!float" =>
        if Word.fits i then .ok (((Real.parse? (toString i).toList).map .real).getD found)
        else .error (.wrongTag found.tag text tag)
      | _, _ => .error (.wrongTag found.tag text tag)

/-- Takes a value from a scalar that means something. -/
def Take.scalar {α : Type} (target : String) (take : Scalar → String → Option α) : Take α :=
  fun site n p =>
    let (p, _, n) := site.enter n p
    if p.failed then (p, none)
    else
      match n with
      | .scalar _ tag text =>
        match meaning tag text with
        | .error trouble => (p.fail trouble, none)
        | .ok .null => (p, none)
        | .ok found =>
          match take found text with
          | some a => (p, some a)
          | none => (p.complain [n.mismatch target], none)
      | .mapping _ _ entries =>
        match Node.repeatedKeys entries with
        | [] => (p.complain [n.mismatch target], none)
        | complaints => (p.complain complaints, none)
      | _ => (p.complain [n.mismatch target], none)

/-- A signed word. The fraction of a real number is dropped. -/
def Take.word : Take Int :=
  Take.scalar "int" fun found _ =>
    match found with
    | .integer i => if Word.fits i then some i else none
    | .real r => r.toWord?
    | _ => none

/-- An unsigned word. The fraction of a real number is dropped. -/
def Take.unsigned : Take Nat :=
  Take.scalar "uint64" fun found _ =>
    match found with
    | .integer i => if 0 ≤ i then some i.toNat else none
    | .real r => r.toUnsigned?
    | _ => none

/-- A text: any scalar as it is written. -/
def Take.text : Take String :=
  Take.scalar "string" fun found text =>
    match found with
    | .text s => some s
    | _ => some text

/-! ### Mappings -/

/-- What the entries of a mapping are taken into: how keys are read, which value a key is, and how an
entry is taken. -/
structure Target (κ σ : Type) where
  /-- What happens to the state at each mapping. -/
  start : σ → σ
  key : Take κ
  toValue : κ → Value
  put : κ → Site → Node × Node → Progress → σ → Progress × σ

/-- The filling of a target. -/
structure Filling (σ : Type) where
  progress : Progress
  state : σ
  /-- Inside a mapping that is taken over into another one: the keys that are not wanted any more. -/
  seen : Option (List Value) := none

namespace Filling
variable {κ σ : Type}

/-- Marks a key as seen, where that is of interest. It is left out if it was seen before. -/
def mark (f : Filling σ) (key : Value) : Filling σ × Bool :=
  match f.seen with
  | none => (f, true)
  | some keys =>
    match key.collection? with
    | some type => ({ f with progress := f.progress.fail (.incomparableKey type) }, false)
    | none =>
      if keys.any (·.sameKey key) then (f, false) else ({ f with seen := some (key :: keys) }, true)

/-- Takes one entry. -/
def takeEntry (t : Target κ σ) (site : Site) (f : Filling σ) (entry : Node × Node) : Filling σ :=
  if f.progress.failed || entry.1.isMerge then f
  else
    match t.key site entry.1 f.progress with
    | (progress, none) => { f with progress }
    | (progress, some key) =>
      match mark { f with progress } (t.toValue key) with
      | (f, false) => f
      | (f, true) =>
        let (progress, state) := t.put key site entry f.progress f.state
        { f with progress, state }

/-- Notes the keys of a mapping into which another one is taken over. -/
def markOwn (generic : Take Value) (site : Site) (f : Filling σ) (entry : Node × Node) : Filling σ :=
  if f.progress.failed then f
  else
    match generic site entry.1 f.progress with
    | (progress, none) => { f with progress }
    | (progress, some key) => ({ f with progress }.mark key).1

/-- The value from which entries are taken over: that of the last key for it. -/
def mergeNode? (entries : List (Node × Node)) : Option Node :=
  (entries.filter fun (key, _) => key.isMerge).getLast?.map Prod.snd

/-- The mappings that the value of such a key names. Some may come before one that is none. -/
def mergedNodes (n : Node) : List Node :=
  match n with
  | .sequence _ _ items => items
  | _ => [n]

/-- Takes the entries of a mapping, and then those of the mappings that are taken over into it. -/
def takeEntries (generic : Take Value) (t : Target κ σ) :
    Nat → Site → List (Node × Node) → Filling σ → Filling σ
  | fuel, site, entries, f =>
    let outer := f.seen
    let f := entries.foldl (takeEntry t site) { f with state := t.start f.state }
    match fuel, mergeNode? entries with
    | fuel + 1, some n =>
      if f.progress.failed then f
      else
        let f :=
          match outer with
          | some _ => f
          | none => entries.foldl (markOwn generic site) { f with seen := some [] }
        let f :=
          (mergedNodes n).foldl
            (fun f n =>
              if f.progress.failed then f
              else if !(site.document.resolve n).isMapping then
                { f with progress := f.progress.fail .mergeWithoutMapping }
              else
                match site.enter n f.progress with
                | (progress, site, .mapping _ _ entries) =>
                  if progress.failed then { f with progress }
                  else
                    match Node.repeatedKeys entries with
                    | [] => takeEntries generic t fuel site entries { f with progress }
                    | complaints => { f with progress := progress.complain complaints }
                | (progress, _, _) => { f with progress })
            f
        if outer.isNone then { f with seen := none } else f
    | _, _ => f

end Filling

/-! ### Values of any form -/

namespace Value

def ofScalar : Scalar → Value
  | .null => .null
  | .flag b => .flag b
  | .integer i => .integer i
  | .real r => .real r
  | .time t => .time t
  | .text s => .text s

/-- The entries of a mapping of any form, where keys that have to be texts are read as such. -/
def target (textual : Bool) (generic : Take Value) : Target Value (List (Value × Value)) where
  start := id
  key := fun site n p =>
    if textual then
      let (p, key) := Take.text site n p
      (p, key.map .text)
    else generic site n p
  toValue := id
  put := fun key site entry p entries =>
    if key.collection?.isSome then (p.fail (.collectionKey key.shown), entries)
    else
      match generic site entry.2 p with
      | (p, some value) => (p, TapeMachine.Value.insert key value entries)
      | (p, none) => (p, entries)

/-- Whether all keys of a mapping are texts. -/
def isTextual (document : Document) (entries : List (Node × Node)) : Bool :=
  entries.all fun (key, _) => document.tagOf key == "!!str" || document.tagOf key == "!!merge"

/-- A value of any form. -/
def take : Nat → Take Value
  | 0 => fun _ _ p => (p, none)
  | fuel + 1 => fun site n p =>
    let (p, site, n) := site.enter n p
    if p.failed then (p, none)
    else
      match n with
      | .scalar _ tag text =>
        match meaning tag text with
        | .error trouble => (p.fail trouble, none)
        | .ok found => (p, some (ofScalar found))
      | .sequence _ _ items =>
        let (p, values) :=
          items.foldl
            (fun (p, values) item =>
              if p.failed then (p, values)
              else
                match take fuel site item p with
                | (p, some value) => (p, value :: values)
                | (p, none) => (p, values))
            (p, [])
        (p, some (.list values.reverse))
      | .mapping _ _ entries =>
        match Node.repeatedKeys entries with
        | [] =>
          let textual := isTextual site.document entries
          let f :=
            Filling.takeEntries (take fuel) (target textual (take fuel)) fuel site entries
              { progress := p, state := [] }
          (f.progress, some (.map textual f.state))
        | complaints => (p.complain complaints, none)
      | .alias .. => (p, none)

end Value
end TapeMachine.Yaml
