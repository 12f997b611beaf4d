import TapeMachine.Text.Numeral

/-! Binary floating-point numbers with fifty-three significant bits, read from decimals. -/
namespace TapeMachine

inductive Real
  /-- The number `mantissa * 2 ^ exponent`, with its sign. -/
  | finite (negative : Bool) (mantissa : Nat) (exponent : Int)
  | infinite (negative : Bool)
  | undefined
  deriving DecidableEq, Repr

namespace Real

/-- The quotient rounded to the nearest integer, a half to the even one. -/
def roundQuotient (num den : Nat) : Nat :=
  let q := num / den
  let r := num % den
  if den < 2 * r || (2 * r = den && q % 2 = 1) then q + 1 else q

/-- The quotient of `num` and `den` times a power of two. -/
def scaled (num den : Nat) (power : Int) : Nat × Nat :=
  if power < 0 then (num * Nat.pow 2 (-power).toNat, den) else (num, den * Nat.pow 2 power.toNat)

/-- The number closest to a positive quotient: mantissa and exponent. -/
def nearest (num den : Nat) : Nat × Int :=
  let guess : Int := (num.log2 : Int) - den.log2
  let (n, d) := scaled num den guess
  let power := max ((if n < d then guess - 1 else guess) - 52) (-1074)
  let (n, d) := scaled num den power
  (roundQuotient n d, power)

/-- The decimal `digits * 10 ^ power`, unless it is too large. -/
def ofDecimal? (negative : Bool) (digits : List Nat) (power : Int) : Option Real :=
  let digits := digits.dropWhile (· == 0)
  let size := (digits.length : Int) + power
  if digits.isEmpty || size < -400 then some (.finite negative 0 0)
  else if 400 < size then none
  else
    let n := digits.foldl (fun n d => n * 10 + d) 0
    let (num, den) :=
      if power < 0 then (n, Nat.pow 10 (-power).toNat) else (n * Nat.pow 10 power.toNat, 1)
    let (mantissa, exponent) := nearest num den
    if Nat.pow 2 1024 ≤ mantissa * Nat.pow 2 exponent.toNat && 0 ≤ exponent then none
    else some (.finite negative mantissa exponent)

def digitsOf (s : List Char) : List Nat := s.map fun c => c.toNat - 0x30

/-- The exponent of a decimal. A huge one is cut short, which changes nothing. -/
def exponent? (s : List Char) : Option Int :=
  match s with
  | [] => some 0
  | e :: rest =>
    if e != 'e' && e != 'E' then none
    else
      let (negative, digits) :=
        match rest with
        | '-' :: digits => (true, digits)
        | '+' :: digits => (false, digits)
        | _ => (false, rest)
      if digits.isEmpty || !digits.all Char.isDigit then none
      else
        let leading := digitsOf ((digits.dropWhile (· == '0')).take 8)
        let n : Nat := leading.foldl (fun n d => n * 10 + d) 0
        some (if negative then -(n : Int) else n)

/-- A decimal: digits with at most one point among them, and perhaps an exponent. -/
def parse (s : List Char) : Except Text.Numeral.Problem Real :=
  let (negative, s) :=
    match s with
    | '-' :: rest => (true, rest)
    | '+' :: rest => (false, rest)
    | _ => (false, s)
  let whole := s.takeWhile Char.isDigit
  let rest := s.drop whole.length
  let (fraction, rest) :=
    match rest with
    | '.' :: rest =>
      let fraction := rest.takeWhile Char.isDigit
      (fraction, rest.drop fraction.length)
    | _ => ([], rest)
  if whole.isEmpty && fraction.isEmpty then .error .invalidSyntax
  else
    match exponent? rest with
    | none => .error .invalidSyntax
    | some power =>
      match ofDecimal? negative (digitsOf (whole ++ fraction)) (power - fraction.length) with
      | none => .error .outOfRange
      | some r => .ok r

/-- A decimal that is not too large. -/
def parse? (s : List Char) : Option Real := (parse s).toOption

/-- Whether two numbers are equal: zeros of both signs are, and what is undefined is not. -/
def same : Real → Real → Bool
  | .finite n m e, .finite n' m' e' =>
    let (a, b) := scaled m 1 (-e)
    let (a', b') := scaled m' 1 (-e')
    a * b' == a' * b && (n == n' || m == 0)
  | .infinite n, .infinite n' => n == n'
  | _, _ => false

/-- The integer part of the magnitude. -/
def magnitude (mantissa : Nat) (exponent : Int) : Nat :=
  if exponent < 0 then mantissa / Nat.pow 2 (-exponent).toNat else mantissa * Nat.pow 2 exponent.toNat

/-- Whether a magnitude is above an integer. -/
def exceeds (mantissa : Nat) (exponent : Int) (bound : Nat) : Bool :=
  let (n, d) := scaled mantissa 1 (-exponent)
  bound * d < n

/-- The integer part as a signed word; what is out of range becomes the least word. -/
def toWord (negative : Bool) (mantissa : Nat) (exponent : Int) : Int :=
  let m : Int := magnitude mantissa exponent
  let i := if negative then -m else m
  if Word.fits i then i else Word.least

/-- The integer part where a signed word is wanted, unless the number is above all of them. -/
def toWord? : Real → Option Int
  | .undefined => none
  | .infinite negative => if negative then some Word.least else none
  | .finite negative mantissa exponent =>
    if !negative && exceeds mantissa exponent (Nat.pow 2 63) then none
    else some (toWord negative mantissa exponent)

/-- The integer part where an unsigned word is wanted, unless the number is above all of them. A
negative number counts modulo the number of words. -/
def toUnsigned? : Real → Option Nat
  | .undefined => none
  | .infinite negative => if negative then some (Nat.pow 2 63) else none
  | .finite negative mantissa exponent =>
    if negative then some (toWord true mantissa exponent % (Nat.pow 2 64 : Nat)).toNat
    else if exceeds mantissa exponent (Nat.pow 2 64) then none
    else some (magnitude mantissa exponent % Nat.pow 2 64)

end Real
end TapeMachine
