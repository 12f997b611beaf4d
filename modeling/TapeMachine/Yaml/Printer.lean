import TapeMachine.Text.Hex
import TapeMachine.Text.Parts
import TapeMachine.Yaml.Scalar
import TapeMachine.Yaml.Cursor

/-! Writing a text as the value of an entry.

A text stands plain if it reads back as itself. One that would mean something else is put in double
quotes, one with characters that have a meaning of their own in single quotes, and one of several
lines becomes a block of lines. What cannot be shown is escaped in double quotes. -/
namespace TapeMachine.Yaml.Printer

/-- Words that other readers take for truth values. -/
def otherFlags : List String :=
  ["y", "Y", "yes", "Yes", "YES", "on", "On", "ON", "n", "N", "no", "No", "NO", "off", "Off", "OFF"]

/-- Whether a part between colons is a number below sixty. -/
def isSixtieth (s : List Char) : Bool :=
  match s with
  | [a] => a.isDigit
  | [a, b] => '0' ≤ a && a ≤ '5' && b.isDigit
  | _ => false

/-- Whether other readers take a text for a number to the base sixty. -/
def isSexagesimal (s : List Char) : Bool :=
  let s :=
    match s with
    | '-' :: rest => rest
    | '+' :: rest => rest
    | _ => s
  let whole := s.takeWhile (· != '.')
  let fraction := s.drop whole.length
  match Text.parts ':' whole with
  | first :: second :: rest =>
    (match first with
      | d :: more => d.isDigit && more.all fun c => c.isDigit || c == '_'
      | [] => false)
      && (second :: rest).all isSixtieth
      && (fraction.drop 1).all fun c => c.isDigit || c == '_'
  | _ => false

/-- Whether a text can stand plain without being taken for something else. -/
def readsAsText (s : String) : Bool :=
  (match Scalar.resolve s with
    | .text _ => true
    | _ => false)
    && !otherFlags.contains s && !isSexagesimal s.toList

/-- Whether a character can be shown. -/
def isShown (c : Char) : Bool :=
  let n := c.toNat
  n == 0x0a || (0x20 ≤ n && n ≤ 0x7e) || (0xa0 ≤ n && n ≤ 0xd7ff)
    || (0xe000 ≤ n && n ≤ 0xfffd && n != 0xfeff)

/-- What a text consists of, as far as its style depends on it. -/
structure Features where
  indicators : Bool
  lineBreaks : Bool
  unshown : Bool
  tabs : Bool
  leadingSpace : Bool
  trailingSpace : Bool
  leadingBreak : Bool
  trailingBreak : Bool
  breakThenSpace : Bool
  spaceThenBreak : Bool

/-- Every character of a text with its neighbours. -/
def withNeighbours (s : List Char) : List (Option Char × Char × Option Char) :=
  ((none :: s.map some).zip (s.zip ((s.drop 1).map some ++ [none]))).map
    fun (before, c, after) => (before, c, after)

/-- Whether a character, between its neighbours, has a meaning of its own. -/
def isIndicator (before : Option Char) (c : Char) (after : Option Char) : Bool :=
  let followed := after.all isBlank
  match before with
  | none =>
    ['#', ',', '[', ']', '\x7b', '\x7d', '&', '*', '!', '|', '>', '\'', '"', '%', '@',
      '\x60'].contains c || (followed && ['?', ':', '-'].contains c)
  | some b =>
    (c == ':' && followed) || (c == '#' && (isBlank b || isBreak b))

def features (s : List Char) : Features :=
  let around := withNeighbours s
  let pairs (p q : Char → Bool) := around.any fun (before, c, _) => before.any p && q c
  { indicators :=
      ['-', '-', '-'].isPrefixOf s || ['.', '.', '.'].isPrefixOf s
        || around.any fun (before, c, after) => isIndicator before c after
    lineBreaks := s.any isBreak
    unshown := s.any fun c => c != '\t' && !isShown c
    tabs := s.contains '\t'
    leadingSpace := s.head? == some ' '
    trailingSpace := s.getLast? == some ' '
    leadingBreak := s.head?.any isBreak
    trailingBreak := s.getLast?.any isBreak
    breakThenSpace := pairs isBreak (· == ' ')
    spaceThenBreak := pairs (· == ' ') isBreak }

namespace Features

def allowsSingle (f : Features) : Bool :=
  !(f.breakThenSpace || f.spaceThenBreak || f.tabs || f.unshown)

def allowsPlain (f : Features) : Bool :=
  f.allowsSingle && !(f.leadingSpace || f.trailingSpace || f.leadingBreak || f.trailingBreak
    || f.lineBreaks || f.indicators)

def allowsBlock (f : Features) : Bool := !(f.trailingSpace || f.spaceThenBreak || f.unshown)

end Features

/-- A character by its number in capital hexadecimal digits. -/
def numbered (mark : Char) (width n : Nat) : List Char :=
  '\\' :: mark :: (Text.padLeft width '0' (Text.Hex.digits n)).map Char.toUpper

/-- A character as an escape. -/
def escaped (c : Char) : List Char :=
  let letters : List (Nat × Char) :=
    [(0, '0'), (7, 'a'), (8, 'b'), (9, 't'), (10, 'n'), (11, 'v'), (12, 'f'), (13, 'r'),
      (0x1b, 'e'), (0x22, '"'), (0x5c, '\\'), (0x85, 'N'), (0xa0, '_'), (0x2028, 'L'),
      (0x2029, 'P')]
  match letters.lookup c.toNat with
  | some letter => ['\\', letter]
  | none =>
    if c.toNat ≤ 0xff then numbered 'x' 2 c.toNat
    else if c.toNat ≤ 0xffff then numbered 'u' 4 c.toNat
    else numbered 'U' 8 c.toNat

/-- A character between double quotes. -/
def escape (c : Char) : List Char :=
  if isShown c && !isBreak c && c != '"' && c != '\\' then [c] else escaped c

/-- A text in double quotes. Behind a mark of the byte order every character is escaped. -/
def double (s : List Char) : List Char :=
  '"' :: s.flatMap (if s.head? == some '\ufeff' then escaped else escape) ++ ['"']

/-- The indentation of inner lines. -/
def indentation : List Char := [' ', ' ', ' ', ' ']

/-- Lines with indentation before each that is not empty. -/
def indented : Bool → List Char → List Char
  | _, [] => []
  | fresh, c :: rest =>
    if isBreak c then c :: indented true rest
    else (if fresh then indentation else []) ++ c :: indented false rest

/-- A text in single quotes. -/
def single (s : List Char) : List Char :=
  '\'' :: indented false (s.flatMap fun c => if c == '\'' then ['\'', '\''] else [c]) ++ ['\'']

/-- How many line ends a text ends with, up to two; a text of one line end counts as two. -/
def blockHint (s : List Char) : List Char :=
  match s.reverse with
  | last :: before :: _ =>
    if !isBreak last then ['-'] else if isBreak before then ['+'] else []
  | [last] => if isBreak last then ['+'] else ['-']
  | [] => ['-']

/-- Ends a line that is not ended yet. -/
def endLine (s : List Char) : List Char := if s.getLast?.any isBreak then s else s ++ ['\n']

/-- A block of lines. A line end in front ends the line in which the block begins. -/
def block (s : List Char) : List Char :=
  let breaks := s.head?.any isBreak
  let hint := if breaks || s.head? == some ' ' then ['4'] else []
  '|' :: hint ++ blockHint s ++ (if breaks then [] else ['\n']) ++ indented true s

/-- A text as the value of an entry, with the end of its line. -/
def text (s : String) : List Char :=
  let cs := s.toList
  let f := features cs
  endLine
    (if cs.contains '\n' then (if f.allowsBlock then block cs else double cs)
    else if !readsAsText s then double cs
    else if f.allowsPlain then cs
    else if f.allowsSingle then single cs
    else double cs)

end TapeMachine.Yaml.Printer
