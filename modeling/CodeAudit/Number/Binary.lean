/-!
# Binary numbers taken apart

A finite double is a whole number times a power of two. Everything exact about doubles is said of
that pair: this module takes a double apart, and finds the double nearest to a fraction, with a tie
going to the even mantissa.
-/

namespace CodeAudit.Number

/-- What the bits of a double say: a sign with `mantissa * 2 ^ (power - 1074)`, an infinity, or not
a number. -/
inductive Binary where
  | finite (negative : Bool) (mantissa power : Nat)
  | infinite (negative : Bool)
  | nan
  deriving Repr, DecidableEq

/-- What the sign counts for among the bits of a double. -/
def signBit : Nat := 0x8000000000000000

/-- What the exponent counts in among the bits of a double; also the least mantissa that is not
that of a subnormal number. -/
def exponentUnit : Nat := 0x10000000000000

/-- What a sign and the bits of a double say; of the bits those below the sign count. -/
def Binary.ofBits (negative : Bool) (bits : Nat) : Binary :=
  let exponent := bits / exponentUnit % 2048
  let fraction := bits % exponentUnit
  if exponent = 2047 then (if fraction = 0 then .infinite negative else .nan)
  else if exponent = 0 then .finite negative fraction 0
  else .finite negative (exponentUnit + fraction) (exponent - 1)

/-- Takes a double apart. -/
def Binary.ofFloat (x : Float) : Binary :=
  let bits := x.toBits.toNat
  .ofBits (bits / signBit == 1) bits

/-- `num / den` rounded to a whole number, a half going to the even neighbour. -/
def roundHalfEven (num den : Nat) : Nat :=
  let q := num / den
  let r := num % den
  if 2 * r < den then q
  else if den < 2 * r then q + 1
  else if q % 2 = 0 then q else q + 1

/-- The double with a sign and bits below the sign. -/
def ofMagnitudeBits (negative : Bool) (bits : Nat) : Float :=
  Float.ofBits (UInt64.ofNat ((if negative then signBit else 0) + bits))

/-- The bits below the sign of infinity. -/
def infinityBits : Nat := 2047 * exponentUnit

/-- The bits below the sign of the double nearest to `num / den`, with `den` positive. A quotient
past the largest double gives infinity.

The quotient is scaled so that its whole part has 53 bits, or fewer for a subnormal number; a
mantissa that rounds up to 54 bits carries into the exponent by itself. -/
def nearestBits (num den : Nat) : Nat :=
  if num = 0 then 0
  else
    -- `log2 num - log2 den` is the binary exponent of the quotient, or one more than it.
    let scale : Int := (Nat.log2 num : Int) - Nat.log2 den - 52
    let scale := if belowTwoPow scale then scale - 1 else scale
    let scale := max scale (-1074)
    let mantissa := scaled scale
    let bits :=
      if mantissa < exponentUnit then mantissa
      else (scale + 1074).toNat * exponentUnit + mantissa
    min bits infinityBits
where
  /-- `num / den / 2 ^ scale`, rounded. -/
  scaled (scale : Int) : Nat :=
    if 0 ≤ scale then roundHalfEven num (den <<< scale.toNat)
    else roundHalfEven (num <<< (-scale).toNat) den
  /-- Whether the scaled quotient lies below `2 ^ 52`. -/
  belowTwoPow (scale : Int) : Bool :=
    if 0 ≤ scale then num < (den <<< scale.toNat) * exponentUnit
    else num <<< (-scale).toNat < den * exponentUnit

/-- A multiple of a double, rounded to a double. -/
def Binary.times (k : Nat) : Binary → Binary
  | .finite negative mantissa power =>
    .ofBits negative
      (nearestBits ((mantissa * k) <<< (power - 1074)) (1 <<< (1074 - power)))
  | b => b

/-- The double nearest to a fraction. -/
def nearest (negative : Bool) (num den : Nat) : Float :=
  ofMagnitudeBits negative (nearestBits num den)

/-- The double nearest to a whole number, unless it is too large for any. -/
def ofInt? (n : Int) : Option Float :=
  let bits := nearestBits n.natAbs 1
  if bits = infinityBits then none else some (ofMagnitudeBits (n < 0) bits)

/-- Infinity. -/
def infinity : Float := ofMagnitudeBits false infinityBits

/-- Not a number. -/
def notANumber : Float := ofMagnitudeBits false (infinityBits + exponentUnit / 2)

/-! ## Whole parts of doubles -/

/-- Why a double has no whole part. -/
inductive WholeFault where
  | notANumber
  | infinite
  deriving Repr, DecidableEq

/-- The text of a fault. -/
def WholeFault.message : WholeFault → String
  | notANumber => "cannot convert float NaN to integer"
  | infinite => "cannot convert float infinity to integer"

/-- A number that is taken apart, without its fraction. -/
def Binary.wholePart : Binary → Except WholeFault Int
  | .nan => .error .notANumber
  | .infinite _ => .error .infinite
  | .finite negative mantissa power =>
    let n := if 1074 ≤ power then mantissa <<< (power - 1074) else mantissa >>> (1074 - power)
    .ok (if negative then -(n : Int) else n)

/-- A double without its fraction. -/
def wholePart (x : Float) : Except WholeFault Int := (Binary.ofFloat x).wholePart

end CodeAudit.Number
