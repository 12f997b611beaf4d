import TapeMachine.Real
import TapeMachine.Text.Decimal
import TapeMachine.Text.Padding

/-! The shortest decimal that reads back as a given number. -/
namespace TapeMachine.Real

/-- The power of ten at which a positive quotient begins: the least `k` with the quotient below
`10 ^ k`, looked for from `low` on. -/
def decimalSize (num den : Nat) : Nat → Int → Int
  | 0, low => low
  | fuel + 1, low =>
    let below :=
      if low < 0 then num * Nat.pow 10 (-low).toNat < den else num < den * Nat.pow 10 low.toNat
    if below then low else decimalSize num den fuel (low + 1)

/-- The quotient rounded to a multiple of `10 ^ power`, counted in such multiples. -/
def roundDecimal (num den : Nat) (power : Int) : Nat :=
  if power < 0 then roundQuotient (num * Nat.pow 10 (-power).toNat) den
  else roundQuotient num (den * Nat.pow 10 power.toNat)

/-- Whether a decimal reads back as the number. -/
def readsBack (mantissa : Nat) (exponent : Int) (digits : Nat) (power : Int) : Bool :=
  match ofDecimal? false ((Text.Decimal.digits digits).map fun c => c.toNat - 0x30) power with
  | some (.finite _ m e) =>
    let (n, d) := scaled m 1 (-e)
    let (n', d') := scaled mantissa 1 (-exponent)
    n * d' == n' * d
  | _ => false

/-- The decimal of a positive number with the fewest digits, at least `count` of them. -/
def shortestFrom (mantissa : Nat) (exponent : Int) : Nat → Nat → Nat × Int
  | 0, _ => (0, 0)
  | fuel + 1, count =>
    let (num, den) := scaled mantissa 1 (-exponent)
    let power := decimalSize num den 800 (-400) - count
    let digits := roundDecimal num den power
    if readsBack mantissa exponent digits power then (digits, power)
    else shortestFrom mantissa exponent fuel (count + 1)

/-- A decimal without an exponent. -/
def positional (digits : Nat) (power : Int) : List Char :=
  let cs := Text.Decimal.digits digits
  if 0 ≤ power then cs ++ List.replicate power.toNat '0'
  else
    let places := (-power).toNat
    let cs := List.replicate (places + 1 - cs.length) '0' ++ cs
    let whole := cs.take (cs.length - places)
    let fraction := ((cs.drop (cs.length - places)).reverse.dropWhile (· == '0')).reverse
    if fraction.isEmpty then whole else whole ++ '.' :: fraction

/-- A decimal with one digit before the point and an exponent of at least two digits. -/
def scientific (digits : Nat) (power : Int) : List Char :=
  let cs := Text.Decimal.digits digits
  let exponent := power + cs.length - 1
  let fraction := (((cs.drop 1).reverse.dropWhile (· == '0'))).reverse
  cs.take 1 ++ (if fraction.isEmpty then [] else '.' :: fraction)
    ++ (if exponent < 0 then ['e', '-'] else ['e', '+'])
    ++ Text.padLeft 2 '0' (Text.Decimal.digits exponent.natAbs)

/-- A number written with `shape` for the shortest decimal of its magnitude. -/
def renderBy (shape : Nat → Int → List Char) : Real → String
  | .undefined => "NaN"
  | .infinite negative => if negative then "-Inf" else "+Inf"
  | .finite negative mantissa exponent =>
    let body :=
      if mantissa = 0 then ['0']
      else
        let (digits, power) := shortestFrom mantissa exponent 17 1
        shape digits power
    String.ofList (if negative then '-' :: body else body)

/-- A number in decimal digits without an exponent, as few as read back. -/
def render : Real → String := renderBy positional

/-- A number in as few digits as read back, with an exponent if it is below -4 or above 5. -/
def renderShort : Real → String :=
  renderBy fun digits power =>
    let exponent := power + (Text.Decimal.digits digits).length - 1
    if exponent < -4 || 6 ≤ exponent then scientific digits power else positional digits power

end TapeMachine.Real
