import TapeMachine.Text.Numeral
import TapeMachine.Yaml.Trouble

/-! How scalars are cut out of a text: plain ones, quoted ones and blocks of lines.

A plain or quoted scalar may go over several lines. A single line end between two of its words stands
for a blank, and more of them for themselves without the first. -/
namespace TapeMachine.Yaml

/-- What stands between two words of a scalar. -/
structure Gap where
  blanks : List Char := []
  /-- The first line end; an escaped one is empty. -/
  firstBreak : Option (List Char) := none
  laterBreaks : List Char := []
  deriving Repr

namespace Gap

/-- What the gap contributes to the scalar. -/
def joined (g : Gap) : List Char :=
  match g.firstBreak with
  | none => g.blanks
  | some first =>
    if first.head? == some '\n' then (if g.laterBreaks.isEmpty then [' '] else g.laterBreaks)
    else first ++ g.laterBreaks

/-- The place of the first tab of some blanks, if it is before the column `least`. -/
def tabBefore? (least : Int) (run : List Char) (mark : Mark) : Option Mark :=
  match run.findIdx? (· == '\t') with
  | some i =>
    if ((mark.column + i : Nat) : Int) < least then
      some ⟨mark.index + i, mark.line, mark.column + i⟩
    else none
  | none => none

/-- Takes blanks and line ends. With `least` given, a tab before that column of a later line is
refused at its place. -/
def take (least : Option Int) : Nat → Gap → Cursor → Except Mark (Gap × Cursor)
  | 0, g, c => .ok (g, c)
  | fuel + 1, g, c =>
    if c.seesBlank 0 then
      let (run, after) := c.takeWhile isBlank
      if g.firstBreak.isNone then take least fuel { g with blanks := run } after
      else
        match least.bind fun least => tabBefore? least run c.mark with
        | some place => .error place
        | none => take least fuel g after
    else if c.seesBreak 0 then
      let (line, c) := c.takeBreak
      if g.firstBreak.isNone then take least fuel { g with blanks := [], firstBreak := some line } c
      else take least fuel { g with laterBreaks := g.laterBreaks ++ line } c
    else .ok (g, c)

end Gap

/-! ### Plain scalars -/

/-- The characters that end a plain scalar inside brackets. -/
def flowIndicators : List Char := [',', '?', '[', ']', '\x7b', '\x7d']

/-- Whether a plain scalar ends before the next character. -/
def endsWord (flow : Bool) (c : Cursor) : Bool :=
  c.seesSpace 0 || (c.sees 0 ':' && c.seesSpace 1)
    || (flow && (c.peek? 0).any flowIndicators.contains)

/-- A word of a plain scalar. -/
def takeWord (flow : Bool) : Nat → List Char → Cursor → List Char × Cursor
  | 0, word, c => (word.reverse, c)
  | fuel + 1, word, c =>
    match c.peek? 0 with
    | none => (word.reverse, c)
    | some x => if endsWord flow c then (word.reverse, c) else takeWord flow fuel (x :: word) c.skip

/-- A scalar that was cut out. -/
structure Cut where
  text : List Char
  stop : Mark
  cursor : Cursor
  /-- Whether the cut ends at the beginning of a line. -/
  freshLine : Bool := false

/-- The rest of a plain scalar whose text so far, in reverse, is `text`. -/
def plainWithin (flow : Bool) (least : Int) (start : Mark) :
    Nat → List Char → Mark → Gap → Cursor → Except Trouble Cut
  | 0, text, stop, gap, c => .ok ⟨text.reverse, stop, c, gap.firstBreak.isSome⟩
  | fuel + 1, text, stop, gap, c =>
    if c.atBorder || c.sees 0 '#' then .ok ⟨text.reverse, stop, c, gap.firstBreak.isSome⟩
    else
      let (word, c) := takeWord flow (fuel + 1) [] c
      let (text, stop, gap) :=
        if word.isEmpty then (text, stop, gap)
        else (word.reverse ++ (gap.joined.reverse ++ text), c.mark, {})
      if !(c.seesBlank 0 || c.seesBreak 0) then
        .ok ⟨text.reverse, stop, c, gap.firstBreak.isSome⟩
      else
        match Gap.take (some least) (fuel + 1) {} c with
        | .error place => .error (.scanning start place .tabInIndentation)
        | .ok (gap, c) =>
          if !flow && (c.mark.column : Int) < least then
            .ok ⟨text.reverse, stop, c, gap.firstBreak.isSome⟩
          else plainWithin flow least start fuel text stop gap c

/-- A plain scalar. Outside of brackets its later lines are indented to `least` at least. -/
def plainScalar (fuel : Nat) (flow : Bool) (least : Int) (c : Cursor) : Except Trouble Cut :=
  plainWithin flow least c.mark fuel [] c.mark {} c

/-! ### Quoted scalars -/

/-- What a character after a backslash stands for. -/
def escaped? (x : Char) : Option Char :=
  [('0', '\x00'), ('a', '\x07'), ('b', '\x08'), ('t', '\t'), ('\t', '\t'), ('n', '\n'),
    ('v', '\x0b'), ('f', '\x0c'), ('r', '\r'), ('e', '\x1b'), (' ', ' '), ('"', '"'),
    ('\'', '\''), ('\\', '\\'), ('N', '\u0085'), ('_', '\u00a0'), ('L', '\u2028'),
    ('P', '\u2029')].lookup x

/-- The number of hexadecimal digits after a backslash and the given character. -/
def codeLength? (x : Char) : Option Nat := [('x', 2), ('u', 4), ('U', 8)].lookup x

/-- An escape sequence, from its backslash on. -/
def takeEscape (start : Mark) (c : Cursor) : Except Trouble (Char × Cursor) :=
  match (c.peek? 1).bind escaped? with
  | some x => .ok (x, c.skipMany 2)
  | none =>
    match (c.peek? 1).bind codeLength? with
    | none => .error (.scanning start c.mark .unknownEscape)
    | some length =>
      let c := c.skipMany 2
      let digits := (c.rest.take length).map Text.Numeral.digit?
      if digits.length < length || !digits.all (·.any (· < 16)) then
        .error (.scanning start c.mark .missingHexDigit)
      else
        let n := digits.foldl (fun n d => n * 16 + d.getD 0) 0
        if (0xd800 ≤ n && n ≤ 0xdfff) || 0x10ffff < n then
          .error (.scanning start c.mark .invalidEscapeCode)
        else .ok (Char.ofNat n, c.skipMany length)

/-- A run of characters without blanks inside quotes, and whether an escaped line end follows. -/
def takeQuoted (single : Bool) (start : Mark) :
    Nat → List Char → Cursor → Except Trouble (List Char × Bool × Cursor)
  | 0, word, c => .ok (word.reverse, false, c)
  | fuel + 1, word, c =>
    match c.peek? 0 with
    | none => .ok (word.reverse, false, c)
    | some x =>
      if c.seesSpace 0 then .ok (word.reverse, false, c)
      else if single && x == '\'' then
        if c.sees 1 '\'' then takeQuoted single start fuel ('\'' :: word) (c.skipMany 2)
        else .ok (word.reverse, false, c)
      else if !single && x == '"' then .ok (word.reverse, false, c)
      else if !single && x == '\\' then
        if c.seesBreak 1 then .ok (word.reverse, true, c.skip.takeBreak.2)
        else
          match takeEscape start c with
          | .error trouble => .error trouble
          | .ok (y, c) => takeQuoted single start fuel (y :: word) c
      else takeQuoted single start fuel (x :: word) c.skip

/-- The rest of a quoted scalar whose text so far, in reverse, is `text`. -/
def quotedWithin (single : Bool) (start : Mark) :
    Nat → List Char → Cursor → Except Trouble Cut
  | 0, text, c => .ok ⟨text.reverse, c.mark, c, false⟩
  | fuel + 1, text, c =>
    if c.atBorder then .error (.scanning start c.mark .borderInQuotes)
    else if c.atEnd then .error (.scanning start c.mark .endInQuotes)
    else
      match takeQuoted single start (fuel + 1) [] c with
      | .error trouble => .error trouble
      | .ok (word, broken, c) =>
        let text := word.reverse ++ text
        if c.sees 0 (if single then '\'' else '"') then
          .ok ⟨text.reverse, c.skip.mark, c.skip, false⟩
        else
          let gap : Gap := if broken then { firstBreak := some [] } else {}
          match Gap.take none (fuel + 1) gap c with
          | .error _ => .ok ⟨text.reverse, c.mark, c, false⟩
          | .ok (gap, c) => quotedWithin single start fuel (gap.joined.reverse ++ text) c

/-- A quoted scalar, from its opening quote on. -/
def quotedScalar (fuel : Nat) (single : Bool) (c : Cursor) : Except Trouble Cut :=
  quotedWithin single c.mark fuel [] c.skip

/-! ### Blocks of lines -/

/-- What happens to the line ends after the last line of a block. -/
inductive Chomping
  | strip
  | clip
  | keep
  deriving DecidableEq

/-- The marks behind the opening of a block: chomping and indentation in either order. -/
def blockHeader (start : Mark) (c : Cursor) : Except Trouble (Chomping × Nat × Cursor) :=
  let chomping? (c : Cursor) : Option Chomping :=
    if c.sees 0 '+' then some .keep else if c.sees 0 '-' then some .strip else none
  let digit? (c : Cursor) : Option Nat :=
    (c.peek? 0).bind fun x => if x.isDigit then Text.Numeral.digit? x else none
  match chomping? c with
  | some chomping =>
    let c := c.skip
    match digit? c with
    | some 0 => .error (.scanning start c.mark .zeroIndentation)
    | some d => .ok (chomping, d, c.skip)
    | none => .ok (chomping, 0, c)
  | none =>
    match digit? c with
    | some 0 => .error (.scanning start c.mark .zeroIndentation)
    | some d =>
      let c := c.skip
      match chomping? c with
      | some chomping => .ok (chomping, d, c.skip)
      | none => .ok (.clip, d, c)
    | none => .ok (.clip, 0, c)

/-- Indentation and empty lines: the line ends, the deepest column seen and the mark of the last
line. -/
def blockBreaks (start : Mark) (indent : Nat) :
    Nat → List Char → Nat → Mark → Cursor → Except Trouble (List Char × Nat × Mark × Cursor)
  | 0, breaks, deepest, stop, c => .ok (breaks, deepest, stop, c)
  | fuel + 1, breaks, deepest, stop, c =>
    let room := c.rest.takeWhile (· == ' ')
    let n := if indent = 0 then room.length else min room.length (indent - c.mark.column)
    let c := c.skipMany n
    let deepest := max deepest c.mark.column
    if (indent = 0 || c.mark.column < indent) && c.sees 0 '\t' then
      .error (.scanning start c.mark .tabForBlank)
    else if c.seesBreak 0 then
      let (line, c) := c.takeBreak
      blockBreaks start indent fuel (breaks ++ line) deepest c.mark c
    else .ok (breaks, deepest, stop, c)

/-- The lines of a block that are indented to `indent`. -/
structure Block where
  /-- The text, in reverse. -/
  text : List Char := []
  lastBreak : List Char := []
  breaks : List Char
  afterBlank : Bool := false
  stop : Mark
  cursor : Cursor

def blockLines (literal : Bool) (start : Mark) (indent : Nat) :
    Nat → Block → Except Trouble Block
  | 0, b => .ok b
  | fuel + 1, b =>
    let c := b.cursor
    if c.mark.column != indent || c.atEnd then .ok b
    else
      let blank := c.seesBlank 0
      let folds := !literal && !b.afterBlank && !blank && b.lastBreak.head? == some '\n'
      let between :=
        if folds then (if b.breaks.isEmpty then [' '] else []) else b.lastBreak
      let (line, c) := c.takeWhile fun _ => true
      let (lastBreak, c) := c.takeBreak
      match blockBreaks start indent (fuel + 1) [] 0 c.mark c with
      | .error trouble => .error trouble
      | .ok (breaks, _, stop, c) =>
        blockLines literal start indent fuel
          ⟨line.reverse ++ (b.breaks.reverse ++ (between.reverse ++ b.text)), lastBreak, breaks,
            blank, stop, c⟩

/-- A block of lines, from its opening mark on, inside a collection that is indented to `parent`. -/
def blockScalar (fuel : Nat) (literal : Bool) (parent : Int) (c : Cursor) :
    Except Trouble Cut := do
  let start := c.mark
  let (chomping, increment, c) ← blockHeader start c.skip
  let (_, c) := c.takeWhile isBlank
  let (_, c) := if c.sees 0 '#' then c.takeWhile fun _ => true else ([], c)
  if !c.seesBreakOrEnd 0 then throw (.scanning start c.mark .missingLineBreak)
  let c := if c.seesBreak 0 then c.takeBreak.2 else c
  let given := if increment = 0 then 0 else (max parent 0).toNat + increment
  let (breaks, deepest, stop, c) ← blockBreaks start given fuel [] 0 c.mark c
  let indent := if given = 0 then max (max deepest (parent + 1).toNat) 1 else given
  let b ← blockLines literal start indent fuel { breaks, stop, cursor := c }
  let tail :=
    match chomping with
    | .strip => []
    | .clip => b.lastBreak
    | .keep => b.lastBreak ++ b.breaks
  return ⟨b.text.reverse ++ tail, b.stop, b.cursor, false⟩

end TapeMachine.Yaml
