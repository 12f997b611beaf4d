import TapeMachine.Format.Toml.Trouble

/-! Strings and keys in TOML.

Literal strings stand in single quotes and have no escapes, basic strings stand in double quotes and
have some. Both can have several lines between three quotes each. Texts are looked at byte by byte. -/
namespace TapeMachine.Format.Toml

/-- The number of bytes of the first character, if it may stand in a text. -/
def characterSize? (s : List Char) : Option Nat :=
  match Text.Utf8.first? (Text.Octets.toBytes (s.take 4)) with
  | some (c, size) =>
    let n := c.toNat
    if n < 9 || n == 11 || n == 12 || (14 ≤ n && n < 32) || n == 127 then none else some size
  | none => none

def isGap (c : Char) : Bool := c == ' ' || c == '\t'

def skipGaps (s : List Char) : List Char := s.dropWhile isGap

/-- What follows a character that is wanted next. -/
def expect (c : Char) (s : List Char) : Except Trouble (List Char) :=
  match s with
  | [] => .error (.expectedAtEnd c)
  | x :: rest => if x == c then .ok rest else .error (.expected c)

/-- A comment up to the end of its line. -/
def takeComment : Nat → List Char → Except Trouble (List Char)
  | 0, s => .ok s
  | _, [] => .ok []
  | fuel + 1, s@(c :: rest) =>
    if c == '\n' then .ok s
    else if c == '\r' then
      match rest with
      | '\n' :: _ => .ok rest
      | _ => .error .inComment
    else
      match characterSize? s with
      | some size => takeComment fuel (s.drop size)
      | none => .error .inComment

/-- The end of a line. -/
def takeNewline (s : List Char) : Except Trouble (List Char) :=
  match s with
  | [] => .ok []
  | '\n' :: rest => .ok rest
  | ['\r'] => .error .loneReturn
  | '\r' :: '\n' :: rest => .ok rest
  | '\r' :: _ => .error .otherReturn
  | c :: _ => .error (.noNewline c)

/-! ### Literal strings -/

/-- The rest of a literal string in one line, in reverse behind what came before. -/
def takeLiteral : Nat → List Char → List Char → Except Trouble (List Char × List Char)
  | 0, _, _ => .error .openLiteral
  | _, _, [] => .error .openLiteral
  | fuel + 1, before, s@(c :: rest) =>
    if c == '\'' then .ok (before.reverse, rest)
    else if c == '\n' || c == '\r' then .error .lineInLiteral
    else
      match characterSize? s with
      | some size => takeLiteral fuel ((s.take size).reverse ++ before) (s.drop size)
      | none => .error .inLiteral

/-- Whether a text begins with three quotes. -/
def isTripled (quote : Char) (s : List Char) : Bool := s.take 3 == [quote, quote, quote]

/-- The quotes behind the three that end a string of several lines: up to two belong to the string. -/
def takeQuotes (quote : Char) (trouble : Trouble) (s : List Char) :
    Except Trouble (List Char × List Char) :=
  match s.takeWhile (· == quote) with
  | [] => .ok ([], s)
  | [a] => .ok ([a], s.drop 1)
  | [a, b] => .ok ([a, b], s.drop 2)
  | _ => .error trouble

/-- The rest of a literal string of several lines. -/
def takeLiteralLines : Nat → List Char → List Char → Except Trouble (List Char × List Char)
  | 0, _, _ => .error .openLines
  | _, _, [] => .error .openLines
  | fuel + 1, before, s@(c :: rest) =>
    if isTripled '\'' s then
      (takeQuotes '\'' .quotesInLines (s.drop 3)).map fun (quotes, rest) =>
        (before.reverse ++ quotes, rest)
    else if c == '\r' then
      match rest with
      | '\n' :: rest => takeLiteralLines fuel ('\n' :: '\r' :: before) rest
      | _ => .error .returnInLines
    else
      match characterSize? s with
      | some size => takeLiteralLines fuel ((s.take size).reverse ++ before) (s.drop size)
      | none => .error .inLiteral

/-- A string without the line end right at its beginning. -/
def dropNewline (s : List Char) : List Char :=
  match s with
  | '\n' :: rest => rest
  | '\r' :: '\n' :: rest => rest
  | _ => s

/-! ### Basic strings -/

/-- The raw text of a basic string in one line, and whether it has escapes. -/
def scanBasic : List Char → Bool → List Char → Except Trouble (List Char × Bool × List Char)
  | _, _, [] => .error .openBasic
  | before, escaped, c :: rest =>
    if c == '"' then .ok (before.reverse, escaped, rest)
    else if c == '\n' || c == '\r' then .error .lineInBasic
    else if c == '\\' then
      match rest with
      | [] => .error .endsInEscape
      | d :: rest => scanBasic (d :: '\\' :: before) true rest
    else scanBasic (c :: before) escaped rest

/-- The raw text of a basic string of several lines, and whether it has escapes. -/
def scanBasicLines : List Char → Bool → List Char → Except Trouble (List Char × Bool × List Char)
  | _, _, [] => .error .openBasicLines
  | before, escaped, c :: rest =>
    if isTripled '"' (c :: rest) then
      (takeQuotes '"' .quotesInBasicLines (rest.drop 2)).map fun (quotes, rest) =>
        (before.reverse ++ quotes, escaped, rest)
    else if c == '\\' then
      match rest with
      | [] => .error .endsInEscape
      | d :: rest => scanBasicLines (d :: '\\' :: before) true rest
    else if c == '\r' then
      match rest with
      | '\n' :: rest => scanBasicLines ('\n' :: '\r' :: before) escaped rest
      | _ => .error .returnInLines
    else scanBasicLines (c :: before) escaped rest

/-- The character of a code in hexadecimal digits. -/
def hexCode : Nat → List Char → Except Trouble Char
  | n, [] =>
    if 0x10ffff < n || (0xd800 ≤ n && n < 0xe000) then .error .wrongCode else .ok (Char.ofNat n)
  | n, c :: rest =>
    match Text.Numeral.digit? c with
    | some d => if d < 16 then hexCode (n * 16 + d) rest else .error .noHexDigit
    | none => .error .noHexDigit

/-- A code of `count` digits, as bytes. -/
def takeCode (count : Nat) (s : List Char) : Except Trouble (List Char × List Char) :=
  let digits := s.take count
  if digits.length < count then .error (.shortCode count s.length)
  else (hexCode 0 digits).map fun c =>
    (Text.Octets.ofBytes (Text.Utf8.encodeChar c), s.drop count)

/-- What stands behind a backslash. -/
def takeEscape (s : List Char) : Except Trouble (List Char × List Char) :=
  match s with
  | [] => .error .endsInEscape
  | c :: rest =>
    if c == '"' || c == '\\' then .ok ([c], rest)
    else if c == 'u' then takeCode 4 rest
    else if c == 'U' then takeCode 8 rest
    else
      match [('b', 8), ('f', 12), ('n', 10), ('r', 13), ('t', 9), ('e', 27)].lookup c with
      | some n => .ok ([Char.ofNat n], rest)
      | none => .error (.unknownEscape c)

/-- What follows a line end behind a backslash and blanks, without the white space there. -/
def afterLineEnd? (s : List Char) : Option (List Char) :=
  let isWhite (c : Char) : Bool := isGap c || c == '\r' || c == '\n'
  match s.dropWhile isGap with
  | '\n' :: rest => some (rest.dropWhile isWhite)
  | '\r' :: '\n' :: rest => some (rest.dropWhile isWhite)
  | _ => none

/-- Replaces the escapes of a raw text. `closing` stands for the quotes behind it, into which a code
can reach. -/
def unescape (lines : Bool) (closing : List Char) :
    Nat → List Char → List Char → Except Trouble (List Char)
  | 0, before, _ => .ok before.reverse
  | _, before, [] => .ok before.reverse
  | fuel + 1, before, s@(c :: rest) =>
    if c == '\\' then
      match if lines then afterLineEnd? rest else none with
      | some rest => unescape lines closing fuel before rest
      | none => do
        let (found, behind) ← takeEscape (rest ++ closing)
        unescape lines closing fuel (found.reverse ++ before)
          (behind.take (behind.length - closing.length))
    else
      match characterSize? s with
      | some size => unescape lines closing fuel ((s.take size).reverse ++ before) (s.drop size)
      | none => .error (.inBasic c)

/-- Whether all characters of a text may stand in it. -/
def isValid : Nat → List Char → Bool
  | 0, _ => true
  | _, [] => true
  | fuel + 1, s =>
    match characterSize? s with
    | some size => isValid fuel (s.drop size)
    | none => false

/-- The text that a raw one stands for. -/
def cooked (lines : Bool) (raw : List Char) (escaped : Bool) : Except Trouble (List Char) :=
  if escaped then unescape lines (if lines then ['"', '"', '"'] else []) raw.length [] raw
  else if isValid raw.length raw then .ok raw
  else .error .encoding

def takeBasic (s : List Char) : Except Trouble (List Char × List Char) := do
  let (raw, escaped, rest) ← scanBasic [] false s
  return (← cooked false raw escaped, rest)

def takeBasicLines (s : List Char) : Except Trouble (List Char × List Char) := do
  let (raw, escaped, rest) ← scanBasicLines [] false s
  return (← cooked true (dropNewline raw) escaped, rest)

/-- A string, whose first quote stands in front. -/
def takeString (s : List Char) : Except Trouble (List Char × List Char) :=
  if isTripled '"' s then takeBasicLines (s.drop 3)
  else if isTripled '\'' s then
    (takeLiteralLines s.length [] (s.drop 3)).map fun (t, rest) => (dropNewline t, rest)
  else if s.head? == some '"' then takeBasic (s.drop 1)
  else takeLiteral s.length [] (s.drop 1)

/-! ### Keys -/

def isKeyCharacter (c : Char) : Bool := c.isAlphanum || c == '-' || c == '_'

/-- One name of a key. -/
def takeName (s : List Char) : Except Trouble (String × List Char) :=
  match s with
  | [] => .error .noKey
  | c :: rest =>
    if c == '\'' then
      (takeLiteral s.length [] rest).map fun (t, rest) => (Text.Octets.text t, rest)
    else if c == '"' then (takeBasic rest).map fun (t, rest) => (Text.Octets.text t, rest)
    else if isKeyCharacter c then
      .ok (String.ofList (s.takeWhile isKeyCharacter), s.dropWhile isKeyCharacter)
    else .error (.keyStart c)

/-- A key: names with points between them. -/
def takeKey : Nat → List Char → Except Trouble (List String × List Char)
  | 0, _ => .error .noKey
  | fuel + 1, s => do
    let (name, rest) ← takeName s
    match skipGaps rest with
    | '.' :: rest =>
      let (names, rest) ← takeKey fuel (skipGaps rest)
      return (name :: names, rest)
    | rest => return ([name], rest)

end TapeMachine.Format.Toml
