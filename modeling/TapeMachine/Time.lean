import TapeMachine.Text.Decimal
import TapeMachine.Text.Padding

/-! Dates and times of day.

A date has a year of four digits and a month and a day of one or two. A time of day behind it has
hours, minutes and seconds of one or two digits and perhaps a fraction. Behind a `T` it also has its
distance from the prime meridian, behind a blank it has none. -/
namespace TapeMachine

structure Time where
  year : Nat
  month : Nat
  day : Nat
  hour : Nat := 0
  minute : Nat := 0
  second : Nat := 0
  nanosecond : Nat := 0
  /-- Minutes east of the prime meridian, if they were given. -/
  offset : Option Int := none
  deriving DecidableEq, Repr

namespace Time

/-! ### Reading -/

def number (digits : List Char) : Nat := digits.foldl (fun n c => n * 10 + (c.toNat - 0x30)) 0

/-- A number of one or two digits, and what follows. -/
def takeTwo? (s : List Char) : Option (Nat × List Char) :=
  match s with
  | a :: b :: rest =>
    if !a.isDigit then none
    else if b.isDigit then some (number [a, b], rest)
    else some (number [a], b :: rest)
  | [a] => if a.isDigit then some (number [a], []) else none
  | [] => none

def daysIn (year month : Nat) : Nat :=
  if month = 2 then (if year % 4 = 0 && (year % 100 ≠ 0 || year % 400 = 0) then 29 else 28)
  else if [4, 6, 9, 11].contains month then 30
  else 31

/-- A time whose sixtieth second is the first of the next minute. -/
def carried (t : Time) : Time :=
  if t.second < 60 then t
  else
    let minute := t.minute + 1
    let hour := t.hour + minute / 60
    let day := t.day + hour / 24
    let last := daysIn t.year t.month
    let month := if last < day then t.month + 1 else t.month
    { t with
      second := t.second - 60
      minute := minute % 60
      hour := hour % 24
      day := if last < day then 1 else day
      month := if 12 < month then 1 else month
      year := if 12 < month then t.year + 1 else t.year }

/-- What follows a character that is wanted next. -/
def after? (c : Char) (s : List Char) : Option (List Char) :=
  match s with
  | x :: rest => if x = c then some rest else none
  | [] => none

/-- A date, and what follows. -/
def takeDate? (s : List Char) : Option (Time × List Char) := do
  if (s.takeWhile Char.isDigit).length ≠ 4 then none
  let year := number (s.take 4)
  let (month, rest) ← takeTwo? (← after? '-' (s.drop 4))
  let (day, rest) ← takeTwo? (← after? '-' rest)
  if 1 ≤ month && month ≤ 12 && 1 ≤ day && day ≤ daysIn year month then
    some ({ year, month, day }, rest)
  else none

/-- A fraction of a second in billionths, of which only nine digits count, and what follows. -/
def takeFraction (s : List Char) : Nat × List Char :=
  match s with
  | p :: d :: _ =>
    if (p == '.' || p == ',') && d.isDigit then
      let digits := (s.drop 1).takeWhile Char.isDigit
      let nine := digits.take 9
      (number nine * Nat.pow 10 (9 - nine.length), s.drop (1 + digits.length))
    else (0, s)
  | _ => (0, s)

/-- A time of day, and what follows. -/
def takeClock? (t : Time) (s : List Char) : Option (Time × List Char) := do
  let (hour, rest) ← takeTwo? s
  let (minute, rest) ← takeTwo? (← after? ':' rest)
  let (second, rest) ← takeTwo? (← after? ':' rest)
  if 24 ≤ hour || 60 ≤ minute || 60 ≤ second then none
  let (nanosecond, rest) := takeFraction rest
  some ({ t with hour, minute, second, nanosecond }, rest)

/-- A distance from the prime meridian: `Z` for none, or sign, hours and minutes. -/
def offset? (s : List Char) : Option (Option Int) :=
  match s with
  | ['Z'] => some none
  | [sign, a, b, ':', c, d] =>
    if !(sign == '+' || sign == '-') || !([a, b, c, d].all Char.isDigit) then none
    else if 24 < number [a, b] || 60 < number [c, d] then none
    else
      let n : Int := number [a, b] * 60 + number [c, d]
      some (some (if sign == '-' then -n else n))
  | _ => none

def parse? (s : List Char) : Option Time := do
  let (t, rest) ← takeDate? s
  match rest with
  | [] => some t
  | separator :: rest =>
    if separator == 'T' || separator == 't' then
      let (t, rest) ← takeClock? t rest
      return { t with offset := ← offset? rest }
    else if separator == ' ' then
      match ← takeClock? t (rest.dropWhile (· == ' ')) with
      | (t, []) => some t
      | _ => none
    else none

/-! ### Writing -/

/-- A number in at least `width` digits. -/
def padded (width n : Nat) : String := String.ofList (Text.padLeft width '0' (Text.Decimal.digits n))

/-- The fraction of a second, without the zeros at its end. -/
def fraction (nanosecond : Nat) : String :=
  if nanosecond = 0 then ""
  else
    let digits := Text.padLeft 9 '0' (Text.Decimal.digits nanosecond)
    "." ++ String.ofList ((digits.reverse.dropWhile (· == '0')).reverse)

/-- A distance from the prime meridian. -/
def zone (offset : Int) : String :=
  (if offset < 0 then "-" else "+") ++ padded 2 (offset.natAbs / 60) ++ padded 2 (offset.natAbs % 60)

def render (t : Time) : String :=
  let offset := t.offset.getD 0
  padded 4 t.year ++ "-" ++ padded 2 t.month ++ "-" ++ padded 2 t.day ++ " " ++ padded 2 t.hour
    ++ ":" ++ padded 2 t.minute ++ ":" ++ padded 2 t.second ++ fraction t.nanosecond ++ " "
    ++ zone offset ++ " " ++ (if offset = 0 then "UTC" else zone offset)

def monthNames : List String :=
  ["January", "February", "March", "April", "May", "June", "July", "August", "September", "October",
    "November", "December"]

/-- A time as the expression that makes it. -/
def expression (t : Time) : String :=
  let place :=
    match t.offset with
    | none => "time.UTC"
    | some offset => if offset = 0 then "time.Local" else "time.Location(\"\")"
  "time.Date(" ++ ", ".intercalate [toString t.year,
    "time." ++ monthNames.getD (t.month - 1) "", toString t.day, toString t.hour, toString t.minute,
    toString t.second, toString t.nanosecond, place] ++ ")"

end Time
end TapeMachine
