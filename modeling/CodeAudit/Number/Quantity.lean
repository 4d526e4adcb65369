import CodeAudit.Number.Read
import CodeAudit.Number.Shortest

/-!
# Whole and real quantities

A limit or a rate may be given as a whole number, as a double, or as a truth value, which counts as
one or zero. Comparison is exact across them: a double is compared by its value, not by rounding
the whole number.
-/

namespace CodeAudit.Number

/-- A whole number of any size, a double, or a truth value. -/
inductive Quantity where
  | whole (n : Int)
  | real (x : Float)
  | truth (b : Bool)
  deriving Repr, Inhabited

/-- The order of a whole number and a double, none for not a number. -/
def compareIntFloat (n : Int) (x : Float) : Option Ordering :=
  match Binary.ofFloat x with
  | .nan => none
  | .infinite negative => some (if negative then .gt else .lt)
  | .finite negative mantissa power =>
    let m : Int := if negative then -(mantissa : Int) else mantissa
    some (if 1074 ≤ power then compare n (m * (1 <<< (power - 1074) : Nat))
      else compare (n * (1 <<< (1074 - power) : Nat)) m)

/-- A truth value as a number. -/
def truthValue (b : Bool) : Int := if b then 1 else 0

/-- The order of two doubles, none if either is not a number. -/
def compareFloats (x y : Float) : Option Ordering :=
  if x < y then some .lt else if y < x then some .gt else if x == y then some .eq else none

/-- A quantity as a whole number, unless it is a double. -/
def Quantity.whole? : Quantity → Option Int
  | whole n => some n
  | truth b => some (truthValue b)
  | real _ => none

/-- The order of two quantities, none if either is not a number. -/
def Quantity.compare? : Quantity → Quantity → Option Ordering
  | real x, real y => compareFloats x y
  | real x, b => b.whole?.bind fun n => (compareIntFloat n x).map Ordering.swap
  | a, real y => a.whole?.bind fun n => compareIntFloat n y
  | a, b => a.whole?.bind fun m => b.whole?.map fun n => compare m n

/-- Whether one quantity is less than another. -/
def Quantity.isLess (a b : Quantity) : Bool := a.compare? b == some .lt

/-- Whether one quantity is less than another or equal to it. -/
def Quantity.isAtMost (a b : Quantity) : Bool := (a.compare? b).any (· != .gt)

/-- How a quantity is written. -/
def Quantity.text : Quantity → String
  | whole n => toString n
  | real x => shortest x
  | truth b => if b then "True" else "False"

/-- Whether a quantity can be written: a whole number may have too many digits. -/
def Quantity.isWritable : Quantity → Bool
  | whole n => Number.isWritable n
  | real _ | truth _ => true

/-- A quantity as a double, unless it is a whole number beyond their range. -/
def Quantity.toFloat? : Quantity → Option Float
  | real x => some x
  | whole n => ofInt? n
  | truth b => some (if b then 1.0 else 0.0)

/-- A quantity as a double. A whole number beyond the range of doubles counts as infinite. -/
def Quantity.toFloat : Quantity → Float
  | real x => x
  | whole n => (ofInt? n).getD (if n < 0 then -infinity else infinity)
  | truth b => if b then 1.0 else 0.0

end CodeAudit.Number
