import CodeAudit.Proofs.Json.Strings

/-!
# JSON: numerals read back

A numeral is what the writer makes of a number: a sign, a whole part without leading zeros, and
perhaps a fraction and an exponent. The reader takes exactly the numeral, provided that what
follows cannot extend it (`EndsNumber`), and tells whole numbers from doubles by whether a fraction
or an exponent was there.
-/

namespace CodeAudit.Json

open Text

/-- A text made of digits. -/
def AllDigits (text : List Char) : Prop := ∀ c ∈ text, c.isDigit

/-- What may follow a number: nothing that could be a part of it. -/
def EndsNumber (rest : List Char) : Prop :=
  ∀ c ∈ rest.head?, c.isDigit = false ∧ c ≠ '.' ∧ c ≠ 'e' ∧ c ≠ 'E'

/-- The digits at the front end where something else begins. -/
theorem digitsOf_append {digits rest : List Char} (hd : AllDigits digits)
    (hr : ∀ c ∈ rest.head?, c.isDigit = false) : digitsOf (digits ++ rest) = digits := by
  rw [digitsOf, List.takeWhile_append_of_pos hd]
  cases rest with
  | nil => simp
  | cons c rest =>
    have hc : c.isDigit = false := hr c rfl
    rw [List.takeWhile_cons_of_neg (by simp [hc]), List.append_nil]

/-- A digit is no other character. -/
theorem ne_of_isDigit {c d : Char} (hc : c.isDigit) (hd : d.isDigit = false) : c ≠ d := by
  rintro rfl
  rw [hd] at hc
  exact Bool.false_ne_true hc

/-! ## Numerals -/

/-- **A numeral.** -/
structure Numeral where
  negative : Bool
  whole : List Char
  /-- The digits behind the point; without digits there is no point. -/
  fraction : List Char
  /-- The sign of the exponent. -/
  mark : Char
  /-- The digits of the exponent; without digits there is no exponent. -/
  exponent : List Char
  whole_ne : whole ≠ []
  whole_digits : AllDigits whole
  no_leading_zero : whole.head? = some '0' → whole = ['0']
  fraction_digits : AllDigits fraction
  mark_sign : mark = '+' ∨ mark = '-'
  exponent_digits : AllDigits exponent

namespace Numeral

variable (n : Numeral)

/-- The sign in front. -/
def signText : List Char := if n.negative then ['-'] else []

/-- The fraction with its point. -/
def fractionText : List Char := if n.fraction = [] then [] else '.' :: n.fraction

/-- The exponent with its mark. -/
def exponentText : List Char := if n.exponent = [] then [] else 'e' :: n.mark :: n.exponent

/-- The text of a numeral. -/
def text : List Char := n.signText ++ n.whole ++ n.fractionText ++ n.exponentText

/-- Whether a numeral stands for a whole number. -/
def isWhole : Bool := n.fraction.isEmpty && n.exponent.isEmpty

/-- What may follow a number may follow its exponent, and cannot extend what precedes. -/
theorem head_exponentText {rest : List Char} (hr : EndsNumber rest) :
    ∀ c ∈ (n.exponentText ++ rest).head?, c.isDigit = false ∧ c ≠ '.' := by
  intro c hc
  unfold exponentText at hc
  split at hc
  · exact ⟨(hr c hc).1, (hr c hc).2.1⟩
  · obtain rfl : 'e' = c := by simpa using hc
    decide

/-- Behind the whole part no digit follows. -/
theorem head_fractionText {rest : List Char} (hr : EndsNumber rest) :
    ∀ c ∈ (n.fractionText ++ (n.exponentText ++ rest)).head?, c.isDigit = false := by
  intro c hc
  unfold fractionText at hc
  split at hc
  · exact (n.head_exponentText hr c hc).1
  · obtain rfl : '.' = c := by simpa using hc
    decide

/-- The fraction is read as it is written. -/
theorem fractionOf_text {rest : List Char} (hr : EndsNumber rest) :
    fractionOf (n.fractionText ++ (n.exponentText ++ rest)) = n.fractionText := by
  have hhead := n.head_exponentText hr
  unfold fractionText
  split
  next h =>
    rw [List.nil_append]
    unfold fractionOf
    split
    next more heq =>
      rw [heq] at hhead
      exact absurd rfl (hhead '.' rfl).2
    next => rfl
  next h =>
    have hdig := digitsOf_append n.fraction_digits fun c hc => (hhead c hc).1
    rw [List.cons_append, fractionOf, hdig]
    cases hf : n.fraction with
    | nil => exact absurd hf h
    | cons c digits => rfl

/-- The exponent is read as it is written. -/
theorem exponentOf_text {rest : List Char} (hr : EndsNumber rest) :
    exponentOf (n.exponentText ++ rest) = n.exponentText := by
  unfold exponentText
  split
  next h =>
    rw [List.nil_append]
    cases rest with
    | nil => rfl
    | cons c rest =>
      obtain ⟨-, -, hlow, hup⟩ := hr c rfl
      have hmark : ¬ (c = 'e' ∨ c = 'E') := fun h => h.elim hlow hup
      unfold exponentOf
      exact if_neg hmark
  next h =>
    have hdig := digitsOf_append n.exponent_digits fun c hc => (hr c hc).1
    have hne : n.exponent.isEmpty = false := by simpa using h
    rcases n.mark_sign with hm | hm <;>
      simp [exponentOf, hm, hdig, hne]

/-- The whole part is read as it is written. -/
theorem wholeOf_text {rest : List Char} (hr : ∀ c ∈ rest.head?, c.isDigit = false) :
    wholeOf (n.whole ++ rest) = n.whole := by
  have hdig := digitsOf_append n.whole_digits hr
  unfold wholeOf
  split
  next tail heq =>
    obtain ⟨c, more, hw⟩ := List.exists_cons_of_ne_nil n.whole_ne
    rw [hw, List.cons_append] at heq
    have hc : c = '0' := (List.cons.inj heq).1
    exact (n.no_leading_zero (by rw [hw, hc]; rfl)).symm
  next => exact hdig

/-- The first character of the whole part is a digit. -/
theorem exists_whole_cons : ∃ c more, n.whole = c :: more ∧ c.isDigit := by
  obtain ⟨c, more, hw⟩ := List.exists_cons_of_ne_nil n.whole_ne
  exact ⟨c, more, hw, n.whole_digits c (by rw [hw]; exact List.mem_cons_self)⟩

/-- The sign is read as it is written. -/
theorem splitMinus_text (rest : List Char) :
    splitMinus (n.signText ++ (n.whole ++ rest)) = (n.signText, n.whole ++ rest) := by
  obtain ⟨c, more, hw, hc⟩ := n.exists_whole_cons
  unfold signText
  split
  next => rfl
  next =>
    rw [List.nil_append]
    unfold splitMinus
    split
    next heq =>
      rw [hw] at heq
      exact absurd (List.cons.inj heq).1 (ne_of_isDigit hc (by decide))
    next => rfl

/-- Whether a numeral is whole shows in its text. -/
theorem isWhole_eq : (n.fractionText.isEmpty && n.exponentText.isEmpty) = n.isWhole := by
  unfold isWhole fractionText exponentText
  cases n.fraction <;> cases n.exponent <;> rfl

/-- **The reader takes exactly the numeral**, as a double if it has a fraction or an exponent. -/
theorem readNumber_text {rest : List Char} (hr : EndsNumber rest) (pos : Nat)
    (hlen : n.whole.length ≤ Number.maxDigits) :
    readNumber ⟨n.text ++ rest, pos⟩ = .ok
      (if n.isWhole then .int (if n.negative then -(Number.digitsNumber n.whole : Int)
          else Number.digitsNumber n.whole)
        else .float ((Number.readFloat? n.text).getD Number.notANumber),
        ⟨rest, pos + n.text.length⟩) := by
  have htext : n.text ++ rest =
      n.signText ++ (n.whole ++ (n.fractionText ++ (n.exponentText ++ rest))) := by
    simp [text]
  have hne : n.whole.isEmpty = false := by simpa using n.whole_ne
  have hneg : n.signText.isEmpty = !n.negative := by
    unfold signText
    cases n.negative <;> rfl
  have hmany : ¬ Number.maxDigits < n.whole.length := by omega
  have hskip : (Spot.mk (n.text ++ rest) pos).skip n.text.length = ⟨rest, pos + n.text.length⟩ :=
    skip_append n.text rest pos
  rw [htext] at hskip ⊢
  unfold readNumber
  simp only [n.splitMinus_text, n.wholeOf_text (n.head_fractionText hr), List.drop_left,
    n.fractionOf_text hr, n.exponentOf_text hr, n.isWhole_eq, hne, hneg]
  change (if n.isWhole = true then
      (if Number.maxDigits < n.whole.length then _ else Except.ok (_, Spot.skip _ n.text.length))
    else Except.ok (_, Spot.skip _ n.text.length)) = _
  rw [if_neg hmany, hskip]
  cases n.isWhole <;> cases n.negative <;> rfl


end Numeral

end CodeAudit.Json
