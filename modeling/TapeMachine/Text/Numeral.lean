import TapeMachine.Word

/-! Reading integers.

A signed numeral is an optional sign and digits. With `free` base the digits may carry a mark of
their base (`0x`, `0o`, `0b`, or a leading zero for eight) and single underscores between digits.
What is not a numeral is invalid; a numeral whose digits leave the range of a word is out of range,
and the digits after the one that leaves it are not looked at. -/
namespace TapeMachine.Text.Numeral

inductive Problem
  | invalidSyntax
  | outOfRange
  deriving DecidableEq, Repr

def Problem.text : Problem → String
  | .invalidSyntax => "invalid syntax"
  | .outOfRange => "value out of range"

/-- The value of a digit, up to thirty-five. -/
def digit? (c : Char) : Option Nat :=
  let n := c.toNat
  if 0x30 ≤ n && n ≤ 0x39 then some (n - 0x30)
  else if 0x61 ≤ n && n ≤ 0x7a then some (n - 0x61 + 10)
  else if 0x41 ≤ n && n ≤ 0x5a then some (n - 0x41 + 10)
  else none

/-- Reads digits of a base onto `value`, skipping underscores if they are allowed. -/
def magnitude (base : Nat) (underscores : Bool) : Nat → List Char → Except Problem Nat
  | value, [] => .ok value
  | value, c :: rest =>
    if underscores && c == '_' then magnitude base underscores value rest
    else
      match digit? c with
      | none => .error .invalidSyntax
      | some d =>
        if base ≤ d then .error .invalidSyntax
        else if Word.unsignedGreatest < value * base + d then .error .outOfRange
        else magnitude base underscores (value * base + d) rest

/-- Unsigned decimal digits. -/
def unsigned (s : List Char) : Except Problem Nat :=
  if s.isEmpty then .error .invalidSyntax else magnitude 10 false 0 s

/-- The base that an unsigned numeral is marked with, and its digits. -/
def split (s : List Char) : Nat × List Char :=
  match s with
  | '0' :: m :: d :: rest =>
    if m = 'x' || m = 'X' then (16, d :: rest)
    else if m = 'o' || m = 'O' then (8, d :: rest)
    else if m = 'b' || m = 'B' then (2, d :: rest)
    else (8, m :: d :: rest)
  | '0' :: rest => (8, rest)
  | _ => (10, s)

/-- What the last character looked at was. -/
inductive Last
  | start
  | digit
  | underscore
  | other
  deriving DecidableEq

/-- Whether every underscore stands between two digits. -/
def spacedFrom (hex : Bool) : Last → List Char → Bool
  | last, [] => last != .underscore
  | last, c :: rest =>
    let isDigit := c.isDigit || (hex && (digit? c).any (· < 16))
    if isDigit then spacedFrom hex .digit rest
    else if c = '_' then last == .digit && spacedFrom hex .underscore rest
    else last != .underscore && spacedFrom hex .other rest

/-- Whether the underscores of an unsigned numeral are where they may be: a mark of the base counts
as a digit. -/
def isSpaced (s : List Char) : Bool :=
  match s with
  | '0' :: m :: rest =>
    if m = 'x' || m = 'X' then spacedFrom true .digit rest
    else if m = 'o' || m = 'O' || m = 'b' || m = 'B' then spacedFrom false .digit rest
    else spacedFrom false .start s
  | _ => spacedFrom false .start s

/-- An unsigned numeral of any base. -/
def unsignedFree (s : List Char) : Except Problem Nat :=
  if s.isEmpty then .error .invalidSyntax
  else
    let (base, digits) := split s
    match magnitude base true 0 digits with
    | .error problem => .error problem
    | .ok value =>
      if s.contains '_' && !isSpaced s then .error .invalidSyntax else .ok value

/-- Gives a magnitude its sign, within the range of a signed word. -/
def withSign (negative : Bool) (value : Nat) : Except Problem Int :=
  let i : Int := if negative then -value else value
  if Word.fits i then .ok i else .error .outOfRange

/-- A signed numeral whose unsigned part is read by `read`. -/
def signedBy (read : List Char → Except Problem Nat) (s : List Char) : Except Problem Int :=
  match s with
  | '-' :: rest => read rest >>= withSign true
  | '+' :: rest => read rest >>= withSign false
  | _ => read s >>= withSign false

/-- A signed decimal numeral. -/
def decimal (s : List Char) : Except Problem Int := signedBy unsigned s

/-- A signed numeral of any base. -/
def free (s : List Char) : Except Problem Int := signedBy unsignedFree s

end TapeMachine.Text.Numeral
