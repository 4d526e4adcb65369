import CodeAudit.Number.Shortest

/-!
# The digits of a shortest decimal

The shortest decimal of a positive double starts with a digit other than zero, because its digits,
read as a number, are not zero: a multiple of a power of ten that reads back lies above the lower
end of the double's reach, and the seventeen digits of the last resort start at the leading place.
-/

namespace CodeAudit.Number

/-- Rounding goes down to the whole part at most. -/
theorem div_le_roundHalfEven (num den : Nat) : num / den ≤ roundHalfEven num den := by
  unfold roundHalfEven
  simp only
  split
  · exact Nat.le_refl _
  split
  · exact Nat.le_succ _
  split
  · exact Nat.le_refl _
  · exact Nat.le_succ _

/-! ## The reach of a positive double -/

/-- A reach above zero over a positive denominator. -/
structure Reach.Positive (r : Reach) : Prop where
  low_pos : 0 < r.low
  value_pos : 0 < r.value
  den_pos : 0 < r.den

/-- **A positive double reaches only positive numbers.** -/
theorem Reach.of_positive {mantissa : Nat} (h : 0 < mantissa) (power : Nat) :
    (Reach.of mantissa power).Positive := by
  have hlow : 0 < 4 * mantissa - (if mantissa = exponentUnit && power > 0 then 1 else 2) := by
    split <;> omega
  have hvalue : 0 < 4 * mantissa := by omega
  have hshift : ∀ {n k : Nat}, 0 < n → 0 < n <<< k := by
    intro n k hn
    rw [Nat.shiftLeft_eq]
    exact Nat.mul_pos hn (Nat.two_pow_pos _)
  unfold Reach.of
  simp only
  split
  · exact ⟨hshift hlow, hshift hvalue, Nat.succ_pos _⟩
  · exact ⟨hlow, hvalue, hshift (Nat.succ_pos _)⟩

variable {r : Reach}

/-- Zero does not read back. -/
theorem Reach.not_contains_zero (hr : r.Positive) {den : Nat} (hd : 0 < den) :
    r.contains 0 den = false := by
  have hpos : 0 < r.low * den := Nat.mul_pos hr.low_pos hd
  unfold Reach.contains
  simp only [Nat.zero_mul]
  split <;> simp only [Bool.and_eq_false_iff, decide_eq_false_iff_not] <;> omega

/-- **What reads back on a grid is not zero.** -/
theorem Reach.onGrid_ne_zero (hr : r.Positive) {exponent : Int} {k : Nat}
    (h : r.onGrid exponent = some k) : k ≠ 0 := by
  unfold Reach.onGrid at h
  simp only at h
  generalize hnum : (if 0 ≤ exponent then Nat.pow 10 exponent.toNat else 1) = unitNum at h
  generalize hden : (if 0 ≤ exponent then 1 else Nat.pow 10 (-exponent).toNat) = unitDen at h
  have hpos : 0 < unitDen := by
    rw [← hden]
    split
    · exact Nat.one_pos
    · exact Nat.pow_pos (by omega)
  -- the lower neighbour is not zero if it reads back
  have hbelow : r.contains (r.value * unitDen / (r.den * unitNum) * unitNum) unitDen = true →
      r.value * unitDen / (r.den * unitNum) ≠ 0 := by
    intro hfit hzero
    rw [hzero, Nat.zero_mul, Reach.not_contains_zero hr hpos] at hfit
    exact Bool.false_ne_true hfit
  have hround := div_le_roundHalfEven (r.value * unitDen) (r.den * unitNum)
  split at h
  next hb _ =>
    rw [← Option.some.inj h]
    exact Nat.ne_of_gt (Nat.lt_of_lt_of_le (Nat.pos_of_ne_zero (hbelow hb)) hround)
  next hb _ =>
    rw [← Option.some.inj h]
    exact hbelow hb
  next =>
    rw [← Option.some.inj h]
    exact Nat.succ_ne_zero _
  next => cases h

/-! ## The leading place -/

/-- A number lies below the power of ten of its digit count. -/
theorem lt_pow_digitCount (n : Nat) : n < Nat.pow 10 (digitCount n) :=
  (Nat.length_toDigits_le_iff (by omega) Nat.length_toDigits_pos).1 (Nat.le_refl _)

/-- A positive number reaches the power of ten of its first digit. -/
theorem pow_digitCount_le {n : Nat} (h : 0 < n) : Nat.pow 10 (digitCount n - 1) ≤ n := by
  rcases Nat.eq_zero_or_pos (digitCount n - 1) with h0 | h0
  · rw [h0]
    exact h
  · rcases Nat.lt_or_ge n (Nat.pow 10 (digitCount n - 1)) with hlt | hge
    · have hle := (Nat.length_toDigits_le_iff (b := 10) (by omega) h0).2 hlt
      rw [← digitCount] at hle
      omega
    · exact hge

/-- Powers of ten grow. -/
theorem pow_ten_le {m n : Nat} (h : m ≤ n) : Nat.pow 10 m ≤ Nat.pow 10 n :=
  Nat.pow_le_pow_right (by omega) h

/-- **The quotient reaches its leading place**: seventeen digits from there on round to something
other than zero. -/
theorem den_le_of_leadingExponent {num den : Nat} (hn : 0 < num) (hd : 0 < den) :
    den * Nat.pow 10 (leadingExponent num den - 16).toNat ≤
      num * Nat.pow 10 (16 - leadingExponent num den).toNat := by
  unfold leadingExponent
  split
  next hle =>
    -- a quotient of one or more
    have hq : Nat.pow 10 (digitCount (num / den) - 1) ≤ num / den :=
      pow_digitCount_le (Nat.div_pos hle hd)
    have hexp : Nat.pow 10 ((digitCount (num / den) : Int) - 1 - 16).toNat ≤ num / den :=
      Nat.le_trans (pow_ten_le (by omega)) hq
    calc den * Nat.pow 10 ((digitCount (num / den) : Int) - 1 - 16).toNat
        ≤ den * (num / den) := Nat.mul_le_mul_left _ hexp
      _ ≤ num := Nat.mul_div_le num den
      _ ≤ num * Nat.pow 10 (16 - ((digitCount (num / den) : Int) - 1)).toNat :=
          Nat.le_mul_of_pos_right _ (Nat.pow_pos (by omega))
  next hlt =>
    -- below one, the leading place is zero or less, and only the right side is scaled
    have hscale : ∀ {k : Nat} {e : Int}, den ≤ num * Nat.pow 10 k → e = -(k : Int) →
        den * Nat.pow 10 (e - 16).toNat ≤ num * Nat.pow 10 (16 - e).toNat := by
      intro k e hk he
      have hone : Nat.pow 10 0 = 1 := rfl
      rw [show (e - 16).toNat = 0 by omega, hone, Nat.mul_one]
      exact Nat.le_trans hk (Nat.mul_le_mul_left _ (pow_ten_le (by omega)))
    have hden : den < Nat.pow 10 (digitCount den) := lt_pow_digitCount den
    have hpos : 0 < digitCount num := Nat.length_toDigits_pos
    have hcount : digitCount num ≤ digitCount den :=
      (Nat.length_toDigits_le_iff (by omega) Nat.length_toDigits_pos).2
        (Nat.lt_trans (Nat.lt_of_not_le hlt) hden)
    simp only
    split
    next h => exact hscale h.1 (by omega)
    split
    next h => exact hscale h (by omega)
    next =>
      refine hscale (k := digitCount den - digitCount num + 1) ?_ (by omega)
      calc den
          ≤ Nat.pow 10 (digitCount den) := Nat.le_of_lt hden
        _ = Nat.pow 10 (digitCount num - 1 + (digitCount den - digitCount num + 1)) := by
            congr 1
            omega
        _ = Nat.pow 10 (digitCount num - 1) * Nat.pow 10 (digitCount den - digitCount num + 1) :=
            Nat.pow_add 10 _ _
        _ ≤ num * Nat.pow 10 (digitCount den - digitCount num + 1) :=
            Nat.mul_le_mul_right _ (pow_digitCount_le hn)

/-! ## The digits -/

/-- The search for the fewest digits ends with something other than zero. -/
theorem Reach.search_ne_zero (hr : r.Positive) (left : Nat) :
    (r.search (leadingExponent r.value r.den) left).1 ≠ 0 := by
  induction left with
  | zero =>
    have hle := den_le_of_leadingExponent hr.value_pos hr.den_pos
    have hden : 0 < r.den * Nat.pow 10 (leadingExponent r.value r.den - 16).toNat :=
      Nat.mul_pos hr.den_pos (Nat.pow_pos (by omega))
    exact Nat.ne_of_gt (Nat.lt_of_lt_of_le (Nat.div_pos hle hden) (div_le_roundHalfEven _ _))
  | succ left ih =>
    unfold Reach.search
    simp only
    split
    next k hk => exact Reach.onGrid_ne_zero hr hk
    next => exact ih

/-- Dropping zeros at the end keeps a number other than zero. -/
theorem dropZeros_ne_zero {digits : Nat} (h : digits ≠ 0) (fuel : Nat) (exponent : Int) :
    (dropZeros fuel digits exponent).1 ≠ 0 := by
  induction fuel generalizing digits exponent with
  | zero => exact h
  | succ fuel ih =>
    unfold dropZeros
    split
    next hz => exact ih (by omega) _
    next => exact h

/-- **The digits of a positive double are not all zero.** -/
theorem shortestDigits_ne_zero {mantissa : Nat} (h : mantissa ≠ 0) (power : Nat) :
    (shortestDigits mantissa power).1 ≠ 0 :=
  dropZeros_ne_zero
    (Reach.search_ne_zero (Reach.of_positive (Nat.pos_of_ne_zero h) power) 17) 20 _

end CodeAudit.Number
