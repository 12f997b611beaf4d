import TapeMachine.Yaml.Properties
import TapeMachine.Yaml.Scalars

/-! Cutting a document into tokens.

Tokens are made on demand. Whether a token begins a key shows only at a later colon, so a token that
may still turn out to be one is kept back until that is settled, and at least three tokens are known
before one is handed out. Outside of brackets the indentation opens and closes collections. -/
namespace TapeMachine.Yaml

/-- The token of a level of brackets that may begin a key. -/
structure Candidate where
  /-- Whether there is such a token. -/
  possible : Bool := false
  /-- Whether the token cannot be anything but a key. -/
  required : Bool := false
  /-- The number of the token. -/
  number : Nat := 0
  mark : Mark := {}
  deriving DecidableEq, Repr

structure Lexer where
  cursor : Cursor
  /-- More than the number of characters, which bounds every loop. -/
  size : Nat
  /-- What is met behind the last character. -/
  problem : Option Problem := none
  /-- Whether the text begins with a byte order mark. -/
  marked : Bool := false
  /-- The tokens that were made and not yet taken. -/
  queue : List Token := [⟨.streamStart, {}, {}⟩]
  /-- The number of tokens taken. -/
  taken : Nat := 0
  /-- Whether the first token of the queue may be looked at. -/
  ready : Bool := false
  /-- The column of the innermost collection. -/
  indent : Int := -1
  /-- The columns of the collections around it, and their number. -/
  outer : List Int := []
  depth : Nat := 0
  /-- The candidates of the brackets around the place, innermost first, and their number. -/
  candidates : List Candidate := [{}]
  levels : Nat := 1
  /-- The tokens to wait for, latest first, each with the level of its candidate. -/
  watched : List (Nat × Nat) := []
  /-- Whether a key may begin here. -/
  keyAllowed : Bool := true

namespace Lexer

/-- Whether the place is inside brackets. -/
def inFlow (l : Lexer) : Bool := 1 < l.levels

/-- How deep brackets and indentation may be nested. -/
def depthLimit : Nat := 10000

/-- Adds a token behind all others. -/
def emit (l : Lexer) (token : Token) : Lexer := { l with queue := l.queue ++ [token] }

/-- Inserts a token before the one with the given number, or behind all others if that one has been
taken. -/
def insertBefore (l : Lexer) (number : Nat) (token : Token) : Lexer :=
  if number < l.taken then l.emit token
  else
    let k := number - l.taken
    { l with queue := l.queue.take k ++ token :: l.queue.drop k }

/-! ### Candidates -/

/-- How far a key may be from its colon. -/
def keyLimit : Nat := 1024

/-- No longer waits for a token. -/
def forget (number : Nat) : List (Nat × Nat) → List (Nat × Nat)
  | [] => []
  | (n, level) :: rest =>
    if number < n then (n, level) :: forget number rest
    else if n = number then rest
    else (n, level) :: rest

/-- The innermost candidate. -/
def candidate (l : Lexer) : Candidate := l.candidates.head?.getD {}

def setCandidate (l : Lexer) (k : Candidate) : Lexer :=
  { l with candidates := k :: l.candidates.drop 1 }

/-- Looks at a candidate again: it is out of the question on a later line or too far on. -/
def review (l : Lexer) (k : Candidate) : Except Trouble Candidate :=
  let mark := l.cursor.mark
  if k.possible && (k.mark.line < mark.line || k.mark.index + keyLimit < mark.index) then
    if k.required then .error (.scanning k.mark mark .missingColon)
    else .ok { k with possible := false }
  else .ok k

/-- Gives up the innermost candidate. -/
def dropCandidate (l : Lexer) : Except Trouble Lexer :=
  let k := l.candidate
  if !k.possible then .ok l
  else if k.required then .error (.scanning k.mark l.cursor.mark .missingColon)
  else
    .ok { l.setCandidate { k with possible := false } with watched := forget k.number l.watched }

/-- The number of the token that comes next. -/
def nextNumber (l : Lexer) : Nat := l.taken + l.queue.length

/-- Makes the token that comes next a candidate, where a key may begin. -/
def nominate (l : Lexer) : Except Trouble Lexer :=
  if !l.keyAllowed then .ok l
  else
    (l.dropCandidate).map fun l =>
      let required := !l.inFlow && l.indent == (l.cursor.mark.column : Int)
      { l.setCandidate ⟨true, required, l.nextNumber, l.cursor.mark⟩ with
        watched := (l.nextNumber, l.levels - 1) :: l.watched }

/-! ### Indentation -/

/-- Opens a collection at a deeper column. -/
def deepen (l : Lexer) (number : Option Nat) (shape : Shape) (mark : Mark) : Except Trouble Lexer :=
  if l.inFlow || (mark.column : Int) ≤ l.indent then .ok l
  else if depthLimit < l.depth + 1 then
    .error (.scanning l.candidate.mark l.cursor.mark .tooDeep)
  else
    let token : Token := ⟨shape, mark, mark⟩
    let l := { l with outer := l.indent :: l.outer, depth := l.depth + 1, indent := mark.column }
    .ok (match number with
      | some number => l.insertBefore number token
      | none => l.emit token)

def closeWithin (column : Int) (mark : Mark) : Nat → Lexer → Lexer
  | 0, l => l
  | fuel + 1, l =>
    if l.indent ≤ column then l
    else
      closeWithin column mark fuel
        { l.emit ⟨.blockEnd, mark, mark⟩ with
          indent := l.outer.head?.getD (-1), outer := l.outer.drop 1, depth := l.depth - 1 }

/-- Closes the collections that are deeper than a column. -/
def close (l : Lexer) (column : Int) (mark : Mark) : Lexer :=
  if l.inFlow then l else closeWithin column mark (l.depth + 1) l

/-! ### Blanks and comments -/

/-- How far behind a comment, or a token, the next comment is looked for. -/
def commentReach : Nat := 511

/-- The blanks and line ends between the end of a line and a comment below it, if there is one. -/
def roomBeforeComment? (c : Cursor) : Option (List Char) :=
  let isRoom (x : Char) : Bool := x == ' ' || x == '\t' || x == '\n' || x == '\r'
  let room := (c.rest.take (commentReach + 1)).takeWhile isRoom
  if c.seesBreak 0 && !room.isEmpty && room.length ≤ commentReach && c.sees room.length '#' then
    some room
  else none

/-- Goes over blanks and line ends. -/
def skipRoom : List Char → Cursor → Cursor
  | [], c => c
  | '\r' :: '\n' :: room, c => skipRoom room c.takeBreak.2
  | x :: room, c => skipRoom room (if isBreak x then c.takeBreak.2 else c.skip)

/-- Goes over a comment and the comments on the lines below it. -/
def skipComments : Nat → Cursor → Cursor
  | 0, c => c
  | fuel + 1, c =>
    let c := (c.takeWhile fun _ => true).2
    match roomBeforeComment? c with
    | some room => skipComments fuel (skipRoom room c)
    | none => c

/-- Goes over blanks, comments and line ends. A tab does not count as a blank where a key may begin.
In a text that begins with a byte order mark the first character of every line is left out. -/
def skipSpaceWithin : Nat → Lexer → Lexer
  | 0, l => l
  | fuel + 1, l =>
    let c := l.cursor
    let c := if l.marked && c.mark.column == 0 && (c.peek? 3).isSome then c.skip else c
    let tabs := l.inFlow || !l.keyAllowed
    let (_, c) := c.takeWhile fun x => x == ' ' || (tabs && x == '\t')
    let c := if c.sees 0 '#' then skipComments l.size c else c
    if c.seesBreak 0 then
      skipSpaceWithin fuel
        { l with cursor := c.takeBreak.2, keyAllowed := l.keyAllowed || !l.inFlow }
    else { l with cursor := c }

def skipSpace (l : Lexer) : Lexer := skipSpaceWithin l.size l

/-- Goes over a comment on the line of the last token. -/
def skipLineComment (l : Lexer) : Lexer :=
  let blanks := (l.cursor.rest.take (commentReach + 1)).takeWhile isBlank
  if blanks.length ≤ commentReach && l.cursor.sees blanks.length '#' then
    { l with cursor := (l.cursor.takeWhile fun _ => true).2 }
  else l

/-! ### Tokens -/

/-- Makes a token of the next `n` characters. -/
def single (l : Lexer) (n : Nat) (shape : Shape) : Lexer :=
  let c := l.cursor.skipMany n
  { l.emit ⟨shape, l.cursor.mark, c.mark⟩ with cursor := c }

/-- Makes a token that ends at the given cursor. -/
def upTo (l : Lexer) (c : Cursor) (shape : Shape) : Lexer :=
  { l.emit ⟨shape, l.cursor.mark, c.mark⟩ with cursor := c }

def streamEnd (l : Lexer) : Except Trouble Lexer := do
  let mark := l.cursor.mark
  let mark := if mark.column = 0 then mark else { mark with line := mark.line + 1, column := 0 }
  let l := { l with cursor := { l.cursor with mark } }
  let l ← (l.close (-1) mark).dropCandidate
  return { l.emit ⟨.streamEnd, mark, mark⟩ with keyAllowed := false }

/-- A token before which every collection is closed. -/
def outermost (l : Lexer) : Except Trouble Lexer := do
  let l ← (l.close (-1) l.cursor.mark).dropCandidate
  return { l with keyAllowed := false }

def directive (l : Lexer) : Except Trouble Lexer := do
  let l ← l.outermost
  let (shape, c) ← takeDirective l.size l.cursor
  return l.upTo c shape

def border (l : Lexer) (shape : Shape) : Except Trouble Lexer := do
  return (← l.outermost).single 3 shape

def flowStart (l : Lexer) (shape : Shape) : Except Trouble Lexer := do
  let l ← l.nominate
  if depthLimit < l.levels then throw (.scanning l.cursor.mark l.cursor.mark .tooDeep)
  let inner : Candidate := { number := l.nextNumber, mark := l.cursor.mark }
  return ({ l with
    candidates := inner :: l.candidates, levels := l.levels + 1, keyAllowed := true }).single 1 shape

/-- The end of brackets. With the level its token is no longer waited for; that is the opening bracket
if nothing inside could begin a key. -/
def flowEnd (l : Lexer) (shape : Shape) : Except Trouble Lexer := do
  let l ← l.dropCandidate
  let l :=
    if l.inFlow then
      { l with
        watched := forget l.candidate.number l.watched
        candidates := l.candidates.drop 1
        levels := l.levels - 1 }
    else l
  return ({ l with keyAllowed := false }).single 1 shape

def flowEntry (l : Lexer) : Except Trouble Lexer := do
  let l ← l.dropCandidate
  return ({ l with keyAllowed := true }).single 1 .flowEntry

def blockEntry (l : Lexer) : Except Trouble Lexer := do
  if !l.inFlow && !l.keyAllowed then
    throw (.scanning l.cursor.mark l.cursor.mark .entryNotAllowed)
  let l ← (← l.deepen none .blockSequenceStart l.cursor.mark).dropCandidate
  return ({ l with keyAllowed := true }).single 1 .blockEntry

def explicitKey (l : Lexer) : Except Trouble Lexer := do
  if !l.inFlow && !l.keyAllowed then
    throw (.scanning l.cursor.mark l.cursor.mark .keyNotAllowed)
  let l ← (← l.deepen none .blockMappingStart l.cursor.mark).dropCandidate
  return ({ l with keyAllowed := !l.inFlow }).single 1 .key

/-- A colon: it makes the innermost candidate a key. -/
def value (l : Lexer) : Except Trouble Lexer := do
  let k ← l.review l.candidate
  let l := l.setCandidate k
  if k.possible then
    let l := l.insertBefore k.number ⟨.key, k.mark, k.mark⟩
    let l ← l.deepen (some k.number) .blockMappingStart k.mark
    let l := { l.setCandidate { k with possible := false } with watched := forget k.number l.watched }
    return ({ l with keyAllowed := false }).single 1 .value
  else
    if !l.inFlow && !l.keyAllowed then
      throw (.scanning l.cursor.mark l.cursor.mark .valueNotAllowed)
    let l ← l.deepen none .blockMappingStart l.cursor.mark
    return ({ l with keyAllowed := !l.inFlow }).single 1 .value

/-- A token of a name, behind which no key can begin. -/
def named (l : Lexer) (shape : String → Shape) : Except Trouble Lexer := do
  let l ← l.nominate
  let (name, c) ← takeName l.cursor
  return { l.upTo c (shape name) with keyAllowed := false }

def tag (l : Lexer) : Except Trouble Lexer := do
  let l ← l.nominate
  let ((handle, suffix), c) ← takeTag l.size l.cursor
  return { l.upTo c (.tag handle suffix) with keyAllowed := false }

/-- A scalar that was cut out. -/
def scalar (l : Lexer) (cut : Cut) (plain : Bool) : Lexer :=
  { l.emit ⟨.scalar (String.ofList cut.text) plain, l.cursor.mark, cut.stop⟩ with
    cursor := cut.cursor }

def block (l : Lexer) (literal : Bool) : Except Trouble Lexer := do
  let l ← l.dropCandidate
  let cut ← blockScalar l.size literal l.indent l.cursor
  return { l.scalar cut false with keyAllowed := true }

def quoted (l : Lexer) (single : Bool) : Except Trouble Lexer := do
  let l ← l.nominate
  let cut ← quotedScalar l.size single l.cursor
  return ({ l.scalar cut false with keyAllowed := false }).skipLineComment

def plain (l : Lexer) : Except Trouble Lexer := do
  let l ← l.nominate
  let cut ← plainScalar l.size l.inFlow (l.indent + 1) l.cursor
  let l := { l.scalar cut true with keyAllowed := cut.freshLine }
  return if cut.freshLine then l else l.skipLineComment

/-- The characters that have a meaning of their own at the beginning of a token. -/
def indicators : List Char :=
  ['-', '?', ':', ',', '[', ']', '\x7b', '\x7d', '#', '&', '*', '!', '|', '>', '\'', '"', '%', '@',
    '\x60']

/-- Whether a plain scalar can begin here. -/
def startsPlain (l : Lexer) : Bool :=
  let c := l.cursor
  !(c.seesSpace 0 || (c.peek? 0).any indicators.contains)
    || (c.sees 0 '-' && !c.seesBlank 1)
    || (!l.inFlow && (c.sees 0 '?' || c.sees 0 ':') && !c.seesSpace 1)

/-- Makes the token that begins at the cursor. -/
def cut (l : Lexer) : Except Trouble Lexer :=
  let c := l.cursor
  if c.atEnd then l.streamEnd
  else if c.mark.column == 0 && c.sees 0 '%' then l.directive
  else if c.seesBorder '-' then l.border .documentStart
  else if c.seesBorder '.' then l.border .documentEnd
  else if c.sees 0 '[' then (l.flowStart .flowSequenceStart).map skipLineComment
  else if c.sees 0 '\x7b' then (l.flowStart .flowMappingStart).map skipLineComment
  else if c.sees 0 ']' then (l.flowEnd .flowSequenceEnd).map skipLineComment
  else if c.sees 0 '\x7d' then (l.flowEnd .flowMappingEnd).map skipLineComment
  else if c.sees 0 ',' then l.flowEntry.map skipLineComment
  else if c.sees 0 '-' && c.seesSpace 1 then l.blockEntry
  else if c.sees 0 '?' && (l.inFlow || c.seesSpace 1) then l.explicitKey.map skipLineComment
  else if c.sees 0 ':' && (l.inFlow || c.seesSpace 1) then l.value.map skipLineComment
  else if c.sees 0 '*' then (l.named .alias).map skipLineComment
  else if c.sees 0 '&' then (l.named .anchor).map skipLineComment
  else if c.sees 0 '!' then l.tag.map skipLineComment
  else if c.sees 0 '|' && !l.inFlow then l.block true
  else if c.sees 0 '>' && !l.inFlow then l.block false
  else if c.sees 0 '\'' then l.quoted true
  else if c.sees 0 '"' then l.quoted false
  else if l.startsPlain then l.plain
  else .error (.scanning c.mark c.mark .noToken)

/-- What is met when the character `k` places further on is asked for. -/
def broken? (l : Lexer) (k : Nat) : Option Trouble :=
  if (l.cursor.peek? k).isSome then none else l.problem.map .reading

/-- Makes the next token, and those that the indentation asks for before it. -/
def next (l : Lexer) : Except Trouble Lexer :=
  let before := l.cursor.mark
  let l := l.skipSpace
  let l := l.close l.cursor.mark.column before
  match l.broken? 3 with
  | some trouble => .error trouble
  | none =>
    match l.cut with
    | .error trouble =>
      if trouble.isAtEnd then .error ((l.problem.map .reading).getD trouble) else .error trouble
    | .ok l =>
      match l.broken? 0 with
      | some trouble => .error trouble
      | none => .ok l

/-- Whether the first token of the queue may still turn out to begin a key. -/
def isPending (l : Lexer) : Except Trouble (Bool × Lexer) :=
  match l.watched.lookup l.taken with
  | none => .ok (false, l)
  | some level =>
    let k := l.levels - 1 - level
    match l.candidates[k]? with
    | none => .ok (false, l)
    | some candidate =>
      (l.review candidate).map fun candidate =>
        (candidate.possible, { l with candidates := l.candidates.set k candidate })

def fillWithin : Nat → Lexer → Except Trouble Lexer
  | 0, l => .ok l
  | fuel + 1, l =>
    if l.queue.length < 3 then
      match l.next with
      | .error trouble => .error trouble
      | .ok l => fillWithin fuel l
    else
      match l.isPending with
      | .error trouble => .error trouble
      | .ok (false, l) => .ok l
      | .ok (true, l) =>
        match l.next with
        | .error trouble => .error trouble
        | .ok l => fillWithin fuel l

/-- Makes tokens until the first one can be looked at. Every round takes a character or meets the end
of the text, behind which no candidate is left. -/
def fill (l : Lexer) : Except Trouble Lexer :=
  if l.ready then .ok l
  else (fillWithin (l.size + 8) l).map fun l => { l with ready := true }

/-- The first token, which stays in the queue. -/
def look (l : Lexer) : Except Trouble (Token × Lexer) :=
  l.fill.map fun l => (l.queue.head?.getD ⟨.streamEnd, l.cursor.mark, l.cursor.mark⟩, l)

/-- Takes the first token away. -/
def drop (l : Lexer) : Lexer :=
  { l with queue := l.queue.drop 1, taken := l.taken + 1, ready := false }

/-- A lexer at the beginning of a document. -/
def ofScript (s : Script) : Lexer :=
  { cursor := { rest := s.text }
    size := s.text.length + 2
    problem := s.problem
    marked := s.text.head? == some '\ufeff' }

end Lexer
end TapeMachine.Yaml
