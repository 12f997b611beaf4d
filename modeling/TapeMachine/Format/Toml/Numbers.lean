import TapeMachine.Format.Toml.Trouble
import TapeMachine.Value

/-! Numbers, dates and times in TOML. -/
namespace TapeMachine.Format.Toml

/-! ### Integers -/

/-- Whether two underscores follow each other. -/
def hasTwoUnderscores : List Char → Bool
  | a :: b :: rest => (a == '_' && b == '_') || hasTwoUnderscores (b :: rest)
  | _ => false

/-- The digits of an integer without underscores, which stand between digits only. -/
def integerDigits (s : List Char) : Except Trouble (List Char) :=
  let unsigned :=
    match s with
    | c :: rest => if c == '+' || c == '-' then rest else s
    | [] => []
  match unsigned.head? with
  | none => .ok s
  | some first =>
    if first == '_' then .error .leadingUnderscore
    else if s.getLast? == some '_' then .error .trailingUnderscore
    else if hasTwoUnderscores s then .error .twoUnderscores
    else .ok (s.filter (· != '_'))

/-- An integer in the digits of a base. -/
def integerIn (base : Base) (digits : List Char) : Except Trouble Int :=
  let radix :=
    match base with
    | .decimal => 10
    | .hexadecimal => 16
    | .octal => 8
    | .binary => 2
  let read (s : List Char) : Except Text.Numeral.Problem Nat :=
    if s.isEmpty then .error .invalidSyntax else Text.Numeral.magnitude radix false 0 s
  match Text.Numeral.signedBy read digits with
  | .ok i => .ok i
  | .error problem => .error (.integer base (String.ofList digits) problem)

/-- A decimal integer, without zeros in front. -/
def decimalInteger (s : List Char) : Except Trouble Int := do
  let digits ← integerDigits s
  let unsigned :=
    match digits with
    | c :: rest => if c == '+' || c == '-' then rest else digits
    | [] => []
  match unsigned with
  | '0' :: _ :: _ => throw .leadingZero
  | _ => integerIn .decimal digits

def parseInteger (s : List Char) : Except Trouble Int :=
  match s with
  | '0' :: mark :: digit :: rest => do
    let digits ← integerDigits (digit :: rest)
    integerIn (if mark == 'x' then .hexadecimal else if mark == 'o' then .octal else .binary) digits
  | _ => decimalInteger s

/-! ### Real numbers -/

/-- Removes the underscores of a real number. `last` is the character in front, and `digit` tells
whether a digit came since the last underscore or sign. -/
def realDigits : Option Char → Bool → List Char → Except Trouble (List Char)
  | _, _, [] => .ok []
  | last, digit, c :: rest =>
    let next := rest.head?
    if c == '_' then
      if !digit then .error .twoUnderscores
      else if next == some 'e' || next == some 'E' then .error .underscoreBeforeExponent
      else realDigits (some c) false rest
    else if c == '+' || c == '-' then (realDigits (some c) false rest).map (c :: ·)
    else if c == 'e' || c == 'E' then
      if next == some '_' then .error .underscoreAfterExponent
      else (realDigits (some c) digit rest).map (c :: ·)
    else if c == '.' then
      if next == some '_' then .error .underscoreAfterPoint
      else if last == some '_' then .error .underscoreBeforePoint
      else (realDigits (some c) digit rest).map (c :: ·)
    else (realDigits (some c) true rest).map (c :: ·)

/-- Looks at the points of a real number, which stand between digits. -/
def checkPoints : Bool → Option Char → List Char → Except Trouble Unit
  | _, _, [] => .ok ()
  | seen, last, c :: rest =>
    if c == '.' then
      if seen then .error .secondPoint
      else if !last.any Char.isDigit then .error .noDigitBeforePoint
      else if !rest.head?.any Char.isDigit then .error .noDigitAfterPoint
      else checkPoints true (some c) rest
    else checkPoints seen (some c) rest

/-- The special numbers. -/
def specialReals : List (String × Real) :=
  [("inf", .infinite false), ("+inf", .infinite false), ("-inf", .infinite true),
    ("nan", .undefined), ("+nan", .undefined), ("-nan", .undefined)]

def parseReal (s : List Char) : Except Trouble Real :=
  match specialReals.lookup (String.ofList s) with
  | some r => .ok r
  | none => do
    if s.head? == some '_' then throw .leadingUnderscore
    if s.getLast? == some '_' then throw .trailingUnderscore
    let digits ← if s.contains '_' then realDigits none false s else .ok s
    if digits.head? == some '.' then throw .leadingPoint
    if digits.getLast? == some '.' then throw .trailingPoint
    checkPoints false none digits
    let unsigned :=
      match digits with
      | c :: rest => if c == '+' || c == '-' then rest else digits
      | [] => []
    match unsigned with
    | '0' :: d :: _ => if d.isDigit then throw .leadingZeros
    | _ => pure ()
    match Real.parse digits with
    | .ok r => return r
    | .error problem => throw (.real (String.ofList digits) problem)

/-! ### Dates and times -/

/-- A time of day, with the number of digits of its fraction. -/
structure Clock where
  hour : Nat
  minute : Nat
  second : Nat
  nanosecond : Nat := 0
  places : Nat := 0
  deriving DecidableEq, Repr

def digits (s : List Char) : Except Trouble Nat :=
  if s.all Char.isDigit then .ok (Time.number s) else .error .digit

def parseDate (s : List Char) : Except Trouble (Nat × Nat × Nat) := do
  if s.length ≠ 10 || (s.drop 4).head? ≠ some '-' || (s.drop 7).head? ≠ some '-' then
    throw .dateForm
  let year ← digits (s.take 4)
  let month ← digits ((s.drop 5).take 2)
  let day ← digits (s.drop 8)
  if 1 ≤ month && month ≤ 12 && 1 ≤ day && day ≤ Time.daysIn year month then
    return (year, month, day)
  throw .impossibleDate

/-- The fraction of a second, of which nine digits count, and what follows. -/
def takeFraction (clock : Clock) (s : List Char) : Except Trouble (Clock × List Char) :=
  match s with
  | '.' :: rest =>
    match rest.takeWhile Char.isDigit with
    | [] => .error (if rest.isEmpty then .fractionAtEnd else .fraction)
    | found =>
      let nine := found.take 9
      let nanosecond := Time.number nine * Nat.pow 10 (9 - nine.length)
      .ok ({ clock with nanosecond, places := nine.length }, rest.drop found.length)
  | _ => .ok (clock, s)

/-- A time of day, and what follows. -/
def takeClock (s : List Char) : Except Trouble (Clock × List Char) := do
  if s.length < 8 then throw .timeForm
  let hour ← digits (s.take 2)
  if 23 < hour then throw .hour
  if (s.drop 2).head? ≠ some ':' then throw .afterHour
  let minute ← digits ((s.drop 3).take 2)
  if 59 < minute then throw .minute
  if (s.drop 5).head? ≠ some ':' then throw .afterMinute
  let second ← digits ((s.drop 6).take 2)
  if 60 < second then throw .second
  takeFraction { hour, minute, second } (s.drop 8)

/-- A date and a time of day, and what follows. -/
def takeDateTime (s : List Char) : Except Trouble ((Nat × Nat × Nat) × Clock × List Char) := do
  if s.length < 11 then throw .dateTimeForm
  let date ← parseDate (s.take 10)
  let separator := ((s.drop 10).head?).getD ' '
  if separator ≠ 'T' && separator ≠ 't' && separator ≠ ' ' then throw .separator
  let (clock, rest) ← takeClock (s.drop 11)
  return (date, clock, rest)

def renderDate (date : Nat × Nat × Nat) : String :=
  Time.padded 4 date.1 ++ "-" ++ Time.padded 2 date.2.1 ++ "-" ++ Time.padded 2 date.2.2

def Clock.render (c : Clock) : String :=
  Time.padded 2 c.hour ++ ":" ++ Time.padded 2 c.minute ++ ":" ++ Time.padded 2 c.second
    ++ (if c.places = 0 then ""
      else "." ++ String.ofList ((Time.padded 9 c.nanosecond).toList.take c.places))

/-- A distance from the prime meridian in minutes; `Z` and a distance of nothing have none. -/
def parseZone (s : List Char) : Except Trouble (Option Int) := do
  match s with
  | z :: rest =>
    if z == 'Z' || z == 'z' then
      if rest.isEmpty then return none
      throw .afterZone
    if s.length ≠ 6 then throw .zoneForm
    if z ≠ '-' && z ≠ '+' then throw .zoneSign
    if (s.drop 3).head? ≠ some ':' then throw .zoneColon
    let hours ← digits ((s.drop 1).take 2)
    if 23 < hours then throw .zoneHour
    let minutes ← digits (s.drop 4)
    if 59 < minutes then throw .zoneMinute
    let n : Int := hours * 60 + minutes
    return if n = 0 then none else some (if z == '-' then -n else n)
  | [] => throw .zoneForm

/-- A date, a time of day and a distance from the prime meridian. -/
def parseMoment (s : List Char) : Except Trouble Time := do
  let ((year, month, day), clock, rest) ← takeDateTime s
  let offset ← parseZone rest
  return Time.carried
    { year, month, day
      hour := clock.hour
      minute := clock.minute
      second := clock.second
      nanosecond := clock.nanosecond
      offset }

/-- A date, a time of day, or both, as a value. -/
def parseTime (s : List Char) (hasDate hasClock hasZone : Bool) : Except Trouble Value := do
  if !hasClock then return .text (renderDate (← parseDate s))
  else if !hasDate then
    let (clock, rest) ← takeClock s
    if rest.isEmpty then return .text clock.render
    throw .afterTime
  else if hasZone then return .time (← parseMoment s)
  else
    let (date, clock, rest) ← takeDateTime s
    if rest.isEmpty then return .text (renderDate date ++ "T" ++ clock.render)
    throw .afterDateTime

/-- What a stretch of a date or a time is made of. -/
structure Stretch where
  hasDate : Bool := false
  hasClock : Bool := false
  hasZone : Bool := false
  seenBlank : Bool := false
  deriving DecidableEq, Repr

/-- How far a date or a time goes, from the character with the given number on. A blank with a digit
behind it may stand in it once, and the character behind the digit is not looked at. -/
def scanTime (t : Stretch) (position : Nat) (s : List Char) : Stretch × Nat :=
  match s with
  | [] => (t, position)
  | c :: rest =>
    if c.isDigit then scanTime t (position + 1) rest
    else if c == '-' then
      scanTime { t with hasDate := true, hasZone := t.hasZone || 8 ≤ position } (position + 1) rest
    else if c == 'T' || c == 't' || c == ':' || c == '.' then
      scanTime { t with hasClock := true } (position + 1) rest
    else if c == '+' || c == 'Z' || c == 'z' then
      scanTime { t with hasZone := true } (position + 1) rest
    else if c == ' ' && !t.seenBlank && rest.head?.any Char.isDigit then
      scanTime { t with hasClock := true, seenBlank := true } (position + 1 + (rest.take 2).length)
        (rest.drop 2)
    else (t, position)
termination_by s.length
decreasing_by all_goals (simp only [List.length_cons, List.length_drop]; omega)

end TapeMachine.Format.Toml
