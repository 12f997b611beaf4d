import TapeMachine.Format.Toml.Numbers
import TapeMachine.Format.Toml.Register
import TapeMachine.Format.Toml.Strings

/-! Tables in TOML.

A text is a row of expressions, one in a line: a key with its value, or the opening of a table into
which the keys that follow go. Each expression is dealt with before the next one is looked at. -/
namespace TapeMachine.Format.Toml

/-- A value as it is written. -/
inductive Written
  | text (value : String)
  | flag (value : Bool)
  | integer (digits : List Char)
  | real (digits : List Char)
  | time (text : List Char) (hasDate hasClock hasZone : Bool)
  | list (items : List Written)
  | table (entries : List (List String × Written))
  deriving Repr

inductive Expression
  | entry (key : List String) (value : Written)
  | table (path : List String)
  | tables (path : List String)
  deriving Repr

/-! ### Grammar -/

/-- A number that is no date. -/
def takeNumber : Bool → List Char → List Char → Except Trouble (Written × List Char)
  | isReal, before, s =>
    let done (rest : List Char) : Except Trouble (Written × List Char) :=
      if before.isEmpty then .error .number
      else .ok (if isReal then .real before.reverse else .integer before.reverse, rest)
    match s with
    | [] => done []
    | c :: rest =>
      if c.isDigit || c == '+' || c == '-' || c == '_' then takeNumber isReal (c :: before) rest
      else if c == '.' || c == 'e' || c == 'E' then takeNumber true (c :: before) rest
      else if c == 'i' || c == 'n' then
        let word := if c == 'i' then ['i', 'n', 'f'] else ['n', 'a', 'n']
        if s.take 3 == word then .ok (.real (before.reverse ++ word), s.drop 3)
        else .error (.inNumber c)
      else done s

/-- The digits that may stand behind the mark of a base. -/
def isDigitOf? (mark : Char) : Option (Char → Bool) :=
  let below (n : Nat) (c : Char) : Bool := c == '_' || (Text.Numeral.digit? c).any (· < n)
  if mark == 'x' then some (below 16)
  else if mark == 'o' then some (below 8)
  else if mark == 'b' then some (below 2)
  else none

/-- A number. -/
def takeNumeral (s : List Char) : Except Trouble (Written × List Char) :=
  match s with
  | '0' :: mark :: rest@(_ :: _) =>
    if mark == '.' || mark == 'e' || mark == 'E' then takeNumber false [] s
    else
      match isDigitOf? mark with
      | some isDigit =>
        .ok (.integer ('0' :: mark :: rest.takeWhile isDigit), rest.dropWhile isDigit)
      | none => .ok (.integer ['0'], mark :: rest)
  | _ => takeNumber false [] s

/-- Whether a date or a time stands in front: two digits and a colon, or four and a dash. -/
def startsTime (s : List Char) : Bool :=
  let digits := ((s.take 5).takeWhile Char.isDigit).length
  3 ≤ s.length
    && ((digits == 2 && (s.drop 2).head? == some ':')
      || (digits == 4 && (s.drop 4).head? == some '-'))

/-- A word that stands for a value. -/
def takeWord (word : String) (value : Written) (s : List Char) :
    Except Trouble (Written × List Char) :=
  if s.take word.length == word.toList then .ok (value, s.drop word.length)
  else .error (.noWord word)

/-- A value that is neither a list nor a table. -/
def takeScalar (s : List Char) : Except Trouble (Written × List Char) :=
  match s with
  | [] => .error .noValue
  | c :: _ =>
    if c == '"' || c == '\'' then
      (takeString s).map fun (t, rest) => (.text (Text.Octets.text t), rest)
    else if c == 't' then takeWord "true" (.flag true) s
    else if c == 'f' then takeWord "false" (.flag false) s
    else if c == 'i' then takeWord "inf" (.real ['i', 'n', 'f']) s
    else if c == 'n' then takeWord "nan" (.real ['n', 'a', 'n']) s
    else if startsTime s then
      let (t, size) := scanTime {} 0 s
      .ok (.time (s.take size) t.hasDate t.hasClock t.hasZone, s.drop size)
    else takeNumeral s

/-- Skips blanks, comments and line ends. -/
def skipLines : Nat → List Char → Except Trouble (List Char)
  | 0, s => .ok s
  | fuel + 1, s => do
    let s := skipGaps s
    let s ← if s.head? == some '#' then takeComment s.length (s.drop 1) else pure s
    match s with
    | c :: _ =>
      if c == '\n' || c == '\r' then
        let s ← takeNewline s
        skipLines fuel s
      else return s
    | [] => return []

mutual
def takeValue : Nat → List Char → Except Trouble (Written × List Char)
  | 0, _ => .error .noValue
  | fuel + 1, s =>
    match s with
    | '[' :: rest =>
      (takeItems fuel true [] rest).map fun (items, rest) => (.list items, rest)
    | '\x7b' :: rest =>
      (takeEntries fuel true [] rest).map fun (entries, rest) => (.table entries, rest)
    | _ => takeScalar s

/-- The items of a list. A comma may stand behind the last one. -/
def takeItems : Nat → Bool → List Written → List Char → Except Trouble (List Written × List Char)
  | 0, _, _, _ => .error .openArray
  | fuel + 1, first, items, s => do
    if s.isEmpty then throw (.expectedAtEnd ']')
    let s ← skipLines s.length s
    match s with
    | [] => throw .openArray
    | ']' :: rest => return (items.reverse, rest)
    | c :: rest =>
      if c == ',' && first then throw .leadingComma
      if c ≠ ',' && !first then throw .noComma
      let s ← if c == ',' then skipLines rest.length rest else pure s
      match s with
      | ']' :: rest => return (items.reverse, rest)
      | _ =>
        let (item, rest) ← takeValue fuel s
        let rest ← skipLines rest.length rest
        takeItems fuel false (item :: items) rest

/-- The entries of a table in one line. -/
def takeEntries : Nat → Bool → List (List String × Written) → List Char →
    Except Trouble (List (List String × Written) × List Char)
  | 0, _, _, _ => .error .openInlineTable
  | fuel + 1, first, entries, s => do
    if s.isEmpty then throw (.expectedAtEnd '\x7d')
    match skipGaps s with
    | [] => throw .openInlineTable
    | '\x7d' :: rest => return (entries.reverse, rest)
    | s =>
      let s ← if first then pure s else (expect ',' s).map skipGaps
      let (key, value, rest) ← takeEntry fuel s
      takeEntries fuel false ((key, value) :: entries) rest

/-- A key with its value. -/
def takeEntry : Nat → List Char → Except Trouble (List String × Written × List Char)
  | 0, _ => .error .noKey
  | fuel + 1, s => do
    let (key, rest) ← takeKey (s.length + 1) s
    if rest.isEmpty then throw .keyOnly
    let rest ← expect '=' rest
    let (value, rest) ← takeValue fuel (skipGaps rest)
    return (key, value, rest)
end

/-- An expression, if the line has one, and what follows. -/
def takeExpression (s : List Char) : Except Trouble (Option Expression × List Char) := do
  let s := skipGaps s
  match s with
  | [] => return (none, [])
  | c :: rest =>
    if c == '#' then return (none, ← takeComment s.length rest)
    if c == '\n' || c == '\r' then return (none, s)
    let (expression, rest) ←
      if s.take 2 == ['[', '['] then do
        let (path, rest) ← takeKey (s.length + 1) (skipGaps (s.drop 2))
        let rest ← expect ']' rest
        let rest ← expect ']' rest
        pure (Expression.tables path, rest)
      else if c == '[' then do
        let (path, rest) ← takeKey (s.length + 1) (skipGaps rest)
        let rest ← expect ']' rest
        pure (Expression.table path, rest)
      else do
        let (key, value, rest) ← takeEntry (2 * s.length + 2) s
        pure (Expression.entry key value, rest)
    match skipGaps rest with
    | '#' :: rest => return (some expression, ← takeComment (rest.length + 1) rest)
    | rest => return (some expression, rest)

/-! ### Values -/

mutual
/-- Looks at the names inside of a value. -/
def Written.check : Written → Except Trouble Unit
  | .list items => checkItems items
  | .table entries => (checkEntries {} entries).map fun _ => ()
  | _ => .ok ()

def checkItems : List Written → Except Trouble Unit
  | [] => .ok ()
  | item :: rest => do
    item.check
    checkItems rest

def checkEntries (r : Register) : List (List String × Written) → Except Trouble Register
  | [] => .ok r
  | (key, value) :: rest => do
    let r ← r.giveKey [] key
    value.check
    checkEntries r rest
end

/-- Sets the value at a path. On the way the last table of a list of tables counts. -/
def placeAt : List String → Value → List (Value × Value) → List (Value × Value)
  | [], _, entries => entries
  | [name], value, entries => Value.insert (.text name) value entries
  | name :: rest, value, entries =>
    let inner :=
      match Value.find? (.text name) entries with
      | some (.map _ inner) => .map true (placeAt rest value inner)
      | some (.list items) =>
        match items.getLast? with
        | some (.map _ inner) => .list (items.dropLast ++ [.map true (placeAt rest value inner)])
        | _ => .map true (placeAt rest value [])
      | _ => .map true (placeAt rest value [])
    Value.insert (.text name) inner entries

/-- The value at a path, on the way to which the last table of a list of tables counts. -/
def valueAt? : List String → List (Value × Value) → Option Value
  | [], _ => none
  | [name], entries => Value.find? (.text name) entries
  | name :: rest, entries =>
    match Value.find? (.text name) entries with
    | some (.map _ inner) => valueAt? rest inner
    | some (.list items) =>
      match items.getLast? with
      | some (.map _ inner) => valueAt? rest inner
      | _ => none
    | _ => none

mutual
def Written.toValue : Written → Except Trouble Value
  | .text s => .ok (.text s)
  | .flag b => .ok (.flag b)
  | .integer digits => (parseInteger digits).map .integer
  | .real digits => (parseReal digits).map .real
  | .time text hasDate hasClock hasZone => parseTime text hasDate hasClock hasZone
  | .list items => (itemValues items).map .list
  | .table entries => (entryValues [] entries).map (.map true)

def itemValues : List Written → Except Trouble (List Value)
  | [] => .ok []
  | item :: rest => do
    let value ← item.toValue
    return value :: (← itemValues rest)

def entryValues (found : List (Value × Value)) :
    List (List String × Written) → Except Trouble (List (Value × Value))
  | [] => .ok found
  | (key, written) :: rest => do
    let value ← written.toValue
    entryValues (placeAt key value found) rest
end

/-- What has been read of a text. -/
structure Reading where
  register : Register := {}
  entries : List (Value × Value) := []

/-- Deals with an expression. -/
def Reading.take (r : Reading) : Expression → Except Trouble Reading
  | .entry key written => do
    let register ← r.register.giveKey r.register.current key
    written.check
    let value ← written.toValue
    return { register, entries := placeAt (r.register.current ++ key) value r.entries }
  | .table path => do
    let register ← r.register.openTable path
    match valueAt? path r.entries with
    | some _ => return { r with register }
    | none => return { register, entries := placeAt path (.map true []) r.entries }
  | .tables path => do
    let register ← r.register.openNext path
    let before :=
      match valueAt? path r.entries with
      | some (.list items) => items
      | _ => []
    return { register, entries := placeAt path (.list (before ++ [.map true []])) r.entries }

/-- Deals with the lines of a text. All but the first begin behind a line end. -/
def takeLines : Nat → Bool → Reading → List Char → Except Trouble Reading
  | 0, _, r, _ => .ok r
  | fuel + 1, first, r, s => do
    if s.isEmpty then return r
    let s ← if first then pure s else takeNewline s
    if s.isEmpty then return r
    match ← takeExpression s with
    | (none, rest) => takeLines fuel false r rest
    | (some expression, rest) =>
      let r ← r.take expression
      takeLines fuel false r rest

/-- The entries of the outermost table. -/
def parse (bytes : List UInt8) : Except Trouble (List (Value × Value)) := do
  let s := Text.Octets.ofBytes bytes
  return (← takeLines (s.length + 2) true {} s).entries

end TapeMachine.Format.Toml
