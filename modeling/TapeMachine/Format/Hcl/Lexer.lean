import TapeMachine.Format.Hcl.Token
import TapeMachine.Text.Graphic
import TapeMachine.Text.Numeral
import TapeMachine.Text.Blank
import TapeMachine.Text.Utf8

/-! Cutting a text in HCL into words.

The lexer goes over the text character by character. Going beyond the end counts as one more column
each time. A trouble does not stop it. -/
namespace TapeMachine.Format.Hcl

/-- Where the lexer stands. -/
structure Lexer where
  /-- The characters ahead; a byte that is part of none is `none`. -/
  ahead : List (Option Char)
  /-- The characters of the word so far, in reverse. -/
  word : List Char := []
  line : Nat := 1
  column : Nat := 0
  /-- The length of the last line, with its end. -/
  lastLine : Nat := 0
  trouble : Option Trouble := none
  deriving Repr

namespace Lexer

/-- The place of the character that was read last. -/
def place (l : Lexer) : Place :=
  if 0 < l.column then ⟨l.line, l.column⟩
  else if 0 < l.lastLine then ⟨l.line - 1, l.lastLine⟩
  else ⟨1, 1⟩

def complain (l : Lexer) (text : String) : Lexer := { l with trouble := some ⟨l.place, text⟩ }

/-- Reads the next character; there is none at the end, and a zero counts as the end. -/
def next (l : Lexer) : Option Char × Lexer :=
  match l.ahead with
  | [] => (none, { l with column := l.column + 1 })
  | none :: rest =>
    let l := { l with ahead := rest, column := l.column + 1, word := '\ufffd' :: l.word }
    (some '\ufffd', l.complain "illegal UTF-8 encoding")
  | some c :: rest =>
    let l := { l with ahead := rest, column := l.column + 1, word := c :: l.word }
    if c == '\n' then
      (some c, { l with line := l.line + 1, lastLine := l.column, column := 0 })
    else if c == '\x00' then (none, l.complain "unexpected null character (0x00)")
    else if c == '\ue123' then
      (some '\ufffd', l.complain "unicode code point U+E123 used by internal library")
    else (some c, l)

/-- The next character, which is not read. -/
def peek (l : Lexer) : Option Char :=
  match l.ahead with
  | [] => none
  | c :: _ => some (c.getD '\ufffd')

/-- Reads characters as long as they have a property; the first one that has not is read as well, and
put back unless it is the end. -/
def readWhile (p : Char → Bool) : Nat → Lexer → Lexer
  | 0, l => l
  | fuel + 1, l =>
    match l.next with
    | (some c, following) => if p c then readWhile p fuel following else l
    | (none, following) => following

def fuel (l : Lexer) : Nat := l.ahead.length + 1

/-! ### Words -/

def isLetter (c : Char) : Bool :=
  c.isAlpha || c == '_' || (0x80 ≤ c.toNat && Text.isGraphic c && !Text.isBlank c)

/-- Reads digits behind one that has been read, or none of them. -/
def readDigits (l : Lexer) : Lexer := readWhile Char.isDigit l.fuel l

/-- Reads what follows the mark of an exponent. -/
def readExponent (l : Lexer) : Lexer :=
  match l.next with
  | (some c, following) =>
    if c == '-' || c == '+' then
      match following.next with
      | (some d, further) => if d.isDigit then further.readDigits else further
      | (none, further) => further
    else if c.isDigit then following.readDigits
    else following
  | (none, following) => following

/-- Reads the digits behind a point and perhaps an exponent. -/
def readFraction (l : Lexer) : Lexer :=
  let l := if l.peek.any Char.isDigit then l.readDigits else l
  if l.peek == some 'e' || l.peek == some 'E' then l.next.2.readExponent else l

/-- Reads the rest of a number behind its whole part. -/
def readNumberEnd (wrongOctal : Bool) (l : Lexer) : Kind × Lexer :=
  match l.next with
  | (some c, following) =>
    if c == 'e' || c == 'E' then (.real, following.readExponent)
    else if c == '.' then (.real, following.readFraction)
    else if wrongOctal then
      (.integer, { l with trouble := (following.complain "illegal octal number").trouble })
    else (.integer, l)
  | (none, following) =>
    (.integer, if wrongOctal then following.complain "illegal octal number" else following)

/-- Reads a number whose first digit has been read. -/
def readNumber (first : Char) (l : Lexer) : Kind × Lexer :=
  if first == '0' then
    match l.peek with
    | some c =>
      if c == 'x' || c == 'X' then
        let l := l.next.2
        let isHex (c : Char) : Bool := (Text.Numeral.digit? c).any (· < 16)
        if l.peek.any isHex then (.integer, readWhile isHex l.fuel l)
        else
          let (c, following) := l.next
          let trouble := (following.complain "illegal hexadecimal number").trouble
          (.integer, if c.isSome then { l with trouble } else { following with trouble })
      else
        let digits := l.ahead.takeWhile fun c => c.any Char.isDigit
        let wrongOctal := (digits.drop 1).any fun c => c == some '8' || c == some '9'
        readNumberEnd wrongOctal (if digits.isEmpty then l else
          { l with
            ahead := l.ahead.drop digits.length
            column := l.column + digits.length
            word := (digits.filterMap id).reverse ++ l.word })
    | none => readNumberEnd false l
  else
    let digits := l.ahead.takeWhile fun c => c.any Char.isDigit
    let l :=
      { l with
        ahead := l.ahead.drop digits.length
        column := l.column + digits.length
        word := (digits.filterMap id).reverse ++ l.word }
    -- The end is met twice: by the digits and by what may follow them.
    if l.ahead.isEmpty then readNumberEnd false l.next.2 else readNumberEnd false l

/-- Reads up to `count` more digits of an escape. -/
def readCode (base : Nat) : Nat → Nat → Lexer → Lexer
  | 0, _, l => l
  | count + 1, start, l =>
    match l.next with
    | (some c, following) =>
      if (Text.Numeral.digit? c).any (· < base) then readCode base count start following
      else
        let trouble := (following.complain "illegal char escape").trouble
        if count + 1 = start then { following with trouble } else { l with trouble }
    | (none, following) => following.complain "illegal char escape"

/-- Reads an escape behind its backslash. -/
def readEscape (l : Lexer) : Lexer :=
  match l.next with
  | (some c, following) =>
    if ['a', 'b', 'f', 'n', 'r', 't', 'v', '\\', '"'].contains c then following
    else if '0' ≤ c && c ≤ '7' then readCode 8 2 3 following
    else if c == 'x' then readCode 16 2 2 following
    else if c == 'u' then readCode 16 4 4 following
    else if c == 'U' then readCode 16 8 8 following
    else following.complain "illegal char escape"
  | (none, following) => following.complain "illegal char escape"

/-- Reads a string behind its first quote. Inside of `braces` braces quotes do not end it. -/
def readString : Nat → Nat → Lexer → Lexer
  | 0, _, l => l
  | fuel + 1, braces, l =>
    match l.next with
    | (none, following) => following.complain "literal not terminated"
    | (some c, following) =>
      if c == '\n' && braces = 0 then following.complain "literal not terminated"
      else if c == '"' && braces = 0 then following
      else
        let (braces, following) :=
          if braces = 0 && c == '$' && following.peek == some '\x7b' then (1, following.next.2)
          else if 0 < braces && c == '\x7b' then (braces + 1, following)
          else (braces, following)
        let braces := if 0 < braces && c == '\x7d' then braces - 1 else braces
        readString fuel braces (if c == '\\' then following.readEscape else following)

/-- Reads a comment to the end of its line, which stays. -/
def readLineComment (l : Lexer) : Lexer := readWhile (· != '\n') l.fuel l

/-- Reads a comment up to the mark that closes it. -/
def readLongComment : Nat → Option Char → Lexer → Lexer
  | 0, _, l => l
  | fuel + 1, last, l =>
    match last with
    | none => l.complain "comment not terminated"
    | some c =>
      match l.next with
      | (found, following) =>
        if c == '*' && found == some '/' then following else readLongComment fuel found following

/-- Reads a comment behind its first character. -/
def readComment (first : Char) (l : Lexer) : Lexer :=
  if first == '#' || l.peek == some '/' then l.readLineComment
  else if l.peek == some '*' then
    let (c, l) := l.next.2.next
    readLongComment (l.fuel + 1) c l
  else l.complain "expected '/' for comment"

/-- Reads the lines of a text up to the one that holds its mark. `line` is the line so far, in
reverse. -/
def readLines (mark : List Char) : Nat → List Char → Lexer → Lexer
  | 0, _, l => l
  | fuel + 1, line, l =>
    match l.next with
    | (none, following) => following.complain "heredoc not terminated"
    | (some c, following) =>
      if c == '\n' then
        let isSpace (c : Char) : Bool := Text.isBlank c && c.toNat < 0x80
        let content := ((line.dropWhile (· == '\r')).reverse).dropWhile isSpace
        if content == mark then following else readLines mark fuel [] following
      else readLines mark fuel (c :: line) following

/-- Reads a text of several lines behind its first mark. -/
def readHeredoc (l : Lexer) : Lexer :=
  match l.next with
  | (some '<', l) =>
    let indented := l.peek == some '-'
    let l := if indented then l.next.2 else l
    let before := l.word.length
    let l := readWhile (fun c => isLetter c || c.isDigit) l.fuel l
    let mark := (l.word.take (l.word.length - before)).reverse
    match l.next with
    | (none, following) => following.complain "heredoc not terminated"
    | (some c, following) =>
      let (c, following) :=
        if c == '\r' && following.peek == some '\n' then ('\n', following.next.2) else (c, following)
      if c != '\n' then following.complain "invalid characters in heredoc anchor"
      else if mark.isEmpty then following.complain "zero-length heredoc anchor"
      else readLines mark following.fuel [] following
  | (_, following) => following.complain "heredoc expected second '<', didn't see it"

/-- Reads the rest of the word that begins with `c`. -/
def readWord (c : Char) (l : Lexer) : Kind × Lexer :=
  if isLetter c then
    let l := readWhile (fun c => isLetter c || c.isDigit || c == '-' || c == '.') l.fuel l
    let name := String.ofList l.word.reverse
    (if name == "true" || name == "false" then .flag else .name, l)
  else if c.isDigit then l.readNumber c
  else if c == '"' then (.string, readString l.fuel 0 l)
  else if c == '#' || c == '/' then (.comment, l.readComment c)
  else if c == '.' then
    if l.peek.any Char.isDigit then (.real, l.readFraction) else (.point, l)
  else if c == '<' then (.lines, l.readHeredoc)
  else if c == '-' then
    match l.peek with
    | some d => if d.isDigit then l.next.2.readNumber d else (.minus, l)
    | none => (.minus, l)
  else
    match [('[', Kind.openBracket), (']', .closeBracket), ('\x7b', .openBrace),
        ('\x7d', .closeBrace), (',', .comma), ('=', .assign), ('+', .plus)].lookup c with
    | some kind => (kind, l)
    | none => (.illegal, l.complain "illegal character")

def isSpace (c : Char) : Bool := c == ' ' || c == '\t' || c == '\n' || c == '\r'

/-- Reads the next word. -/
def readToken : Nat → Lexer → Token × Lexer
  | 0, l => (⟨.ending, [], l.place, l.trouble⟩, l)
  | fuel + 1, l =>
    match { l with word := [] }.next with
    | (none, following) => (⟨.ending, [], following.place, following.trouble⟩, following)
    | (some c, following) =>
      if isSpace c then readToken fuel following
      else
        let (kind, l) := following.readWord c
        (⟨kind, l.word.reverse, following.place, l.trouble⟩, l)

/-- All words of a text up to its end, without the comments. -/
def readTokens : Nat → Lexer → List Token
  | 0, l => [⟨.ending, [], l.place, l.trouble⟩]
  | fuel + 1, l =>
    let (token, l) := l.readToken l.fuel
    if token.kind = .ending then [token]
    else if token.kind = .comment then readTokens fuel l
    else token :: readTokens fuel l

end Lexer

/-- The characters of bytes, with `none` for each byte that is part of none. -/
def characters : Nat → List UInt8 → List (Option Char)
  | 0, _ => []
  | _, [] => []
  | fuel + 1, bytes@(_ :: rest) =>
    match Text.Utf8.first? bytes with
    | some (c, n) => some c :: characters fuel (bytes.drop n)
    | none => none :: characters fuel rest

/-- A text in which line feeds alone end lines. -/
def plainLines : List (Option Char) → List (Option Char)
  | some '\r' :: some '\n' :: rest => some '\n' :: plainLines rest
  | c :: rest => c :: plainLines rest
  | [] => []

/-- The words of a text. -/
def tokens (bytes : List UInt8) : List Token :=
  let ahead := plainLines (characters bytes.length bytes)
  Lexer.readTokens (ahead.length + 2) { ahead }

end TapeMachine.Format.Hcl
