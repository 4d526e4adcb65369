import CodeAudit.Number.Binary

/-!
# Decimals of doubles

A double is written with the fewest significant digits that read back as the same double; of
several such decimals the nearest is taken. Exponents from -4 to 15 are written positionally.
-/

namespace CodeAudit.Number

/-- The interval of reals that round to a double, over a common denominator: the value is
`value / den`, and a real reads back when it lies between `low / den` and `high / den`, the ends
included when `closed`. -/
structure Reach where
  value : Nat
  low : Nat
  high : Nat
  den : Nat
  closed : Bool
  deriving Repr

/-- The reach of `mantissa * 2 ^ (power - 1074)`. Just above a power of two the gap below is half
the gap above. -/
def Reach.of (mantissa power : Nat) : Reach :=
  -- in units of a quarter of the last place
  let narrow := mantissa = exponentUnit && power > 0
  let value := 4 * mantissa
  let low := value - (if narrow then 1 else 2)
  let high := value + 2
  let closed := mantissa % 2 == 0
  if 1074 ≤ power then
    let up := power - 1074
    ⟨value <<< up, low <<< up, high <<< up, 4, closed⟩
  else ⟨value, low, high, 4 <<< (1074 - power), closed⟩

/-- Whether `num / den` reads back, for a fraction over any positive denominator. -/
def Reach.contains (r : Reach) (num den : Nat) : Bool :=
  let x := num * r.den
  if r.closed then r.low * den ≤ x && x ≤ r.high * den
  else r.low * den < x && x < r.high * den

/-- The value's two neighbours among the multiples of `10 ^ exponent`, and the nearer one of those
that read back; a tie goes to the even one. -/
def Reach.onGrid (r : Reach) (exponent : Int) : Option Nat :=
  let unitNum := if 0 ≤ exponent then Nat.pow 10 exponent.toNat else 1
  let unitDen := if 0 ≤ exponent then 1 else Nat.pow 10 (-exponent).toNat
  let below := r.value * unitDen / (r.den * unitNum)
  let above := below + 1
  let fits := fun k => r.contains (k * unitNum) unitDen
  match fits below, fits above with
  | true, true => some (roundHalfEven (r.value * unitDen) (r.den * unitNum))
  | true, false => some below
  | false, true => some above
  | false, false => none

/-- The number of decimal digits of a positive number. -/
def digitCount (n : Nat) : Nat := (Nat.toDigits 10 n).length

/-- The power of ten of the first digit of `num / den`. -/
def leadingExponent (num den : Nat) : Int :=
  if den ≤ num then (digitCount (num / den) : Int) - 1
  else
    -- `10 ^ k * num` reaches `den` for the first time at the place of the first digit
    let guess : Int := (digitCount den : Int) - digitCount num
    if den ≤ num * Nat.pow 10 (guess - 1).toNat ∧ 0 < guess then -(guess - 1)
    else if den ≤ num * Nat.pow 10 guess.toNat then -guess
    else -(guess + 1)

/-- Tries one significant digit, then two, and so on up to seventeen; gives the digits as a number
with the exponent of the last one. -/
def Reach.search (r : Reach) (lead : Int) : Nat → Nat × Int
  | 0 =>
    (roundHalfEven (r.value * Nat.pow 10 (16 - lead).toNat) (r.den * Nat.pow 10 (lead - 16).toNat),
      lead - 16)
  | left + 1 =>
    let count : Nat := 17 - (left + 1)
    let exponent := lead - count
    match r.onGrid exponent with
    | some k => (k, exponent)
    | none => r.search lead left

/-- Drops the zeros at the end of the digits, raising the exponent. -/
def dropZeros : Nat → Nat → Int → Nat × Int
  | 0, digits, exponent => (digits, exponent)
  | fuel + 1, digits, exponent =>
    if digits % 10 = 0 ∧ digits ≠ 0 then dropZeros fuel (digits / 10) (exponent + 1)
    else (digits, exponent)

/-- The digits of a positive double and the power of ten of the last one. -/
def shortestDigits (mantissa power : Nat) : Nat × Int :=
  let r := Reach.of mantissa power
  let (digits, exponent) := r.search (leadingExponent r.value r.den) 17
  dropZeros 20 digits exponent

/-- Digits with a point after the first `whole` of them; `whole` may lie outside the digits. -/
def positional (digits : List Char) (whole : Int) : List Char :=
  if whole ≤ 0 then "0.".toList ++ List.replicate (-whole).toNat '0' ++ digits
  else if digits.length ≤ whole.toNat then
    digits ++ List.replicate (whole.toNat - digits.length) '0' ++ ".0".toList
  else digits.take whole.toNat ++ '.' :: digits.drop whole.toNat

/-- Digits with a point after the first and an exponent of at least two digits. -/
def scientific (digits : List Char) (exponent : Int) : List Char :=
  let mantissa := match digits with
    | first :: [] => [first]
    | first :: others => first :: '.' :: others
    | [] => []
  let size := Nat.toDigits 10 exponent.natAbs
  let sign := if exponent < 0 then '-' else '+'
  mantissa ++ 'e' :: sign :: (if size.length < 2 then '0' :: size else size)

/-- The shortest decimal of `mantissa * 2 ^ (power - 1074)`. -/
def magnitudeText (mantissa power : Nat) : List Char :=
  if mantissa = 0 then "0.0".toList
  else
    let (n, last) := shortestDigits mantissa power
    let digits := Nat.toDigits 10 n
    let exponent : Int := last + digits.length - 1
    if -4 ≤ exponent ∧ exponent < 16 then positional digits (exponent + 1)
    else scientific digits exponent

/-- The shortest decimal that reads back. -/
def shortest (x : Float) : String :=
  match Binary.ofFloat x with
  | .nan => "nan"
  | .infinite negative => if negative then "-inf" else "inf"
  | .finite negative mantissa power =>
    let body := magnitudeText mantissa power
    String.ofList (if negative then '-' :: body else body)

/-! ## Decimals with a fixed number of places -/

/-- A magnitude `mantissa * 2 ^ (power - 1074)` in units of `10 ^ -places`, rounded. -/
def roundedUnits (places mantissa power : Nat) : Nat :=
  if 1074 ≤ power then (mantissa <<< (power - 1074)) * Nat.pow 10 places
  else roundHalfEven (mantissa * Nat.pow 10 places) (1 <<< (1074 - power))

/-- A number of units of `10 ^ -places` as text. -/
def unitsText (places units : Nat) : List Char :=
  let digits := Nat.toDigits 10 units
  let digits := List.replicate (places + 1 - digits.length) '0' ++ digits
  let whole := digits.take (digits.length - places)
  if places = 0 then whole else whole ++ '.' :: digits.drop (digits.length - places)

/-- A double with a fixed number of places. -/
def fixed (places : Nat) (x : Float) : String :=
  match Binary.ofFloat x with
  | .nan => "nan"
  | .infinite negative => if negative then "-inf" else "inf"
  | .finite negative mantissa power =>
    let body := unitsText places (roundedUnits places mantissa power)
    String.ofList (if negative then '-' :: body else body)

/-- The double nearest to a double rounded to a number of places. -/
def roundTo (places : Nat) (x : Float) : Float :=
  match Binary.ofFloat x with
  | .finite negative mantissa power =>
    -- from this size on every double is a whole number
    if 1074 ≤ power then x
    else nearest negative (roundedUnits places mantissa power) (Nat.pow 10 places)
  | _ => x

end CodeAudit.Number
