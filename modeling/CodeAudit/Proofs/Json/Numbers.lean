import CodeAudit.Proofs.Json.Numerals
import CodeAudit.Proofs.Number.Shortest

/-!
# JSON: numbers read back

Whole numbers and finite doubles are written as numerals, and the rest of the doubles as words. A
whole number is read back as itself if it has no more digits than the reader takes. A double is
read back as a double (`floatBack`), which is all that a report needs: no fingerprint holds one.
-/

namespace CodeAudit.Json

open Text

/-- The digits of a number are digits. -/
theorem allDigits_toDigits (n : Nat) : AllDigits (Nat.toDigits 10 n) :=
  fun _ hc => Nat.isDigit_of_mem_toDigits (by omega) (by omega) hc

/-- The digits of a number other than zero start with another digit than zero. -/
theorem head_toDigits {n : Nat} (h : n ≠ 0) : (Nat.toDigits 10 n).head? ≠ some '0' := by
  induction n using Nat.strongRecOn with
  | ind n ih =>
    rw [Nat.toDigits_eq_if (by omega)]
    split
    next hlt =>
      intro hzero
      exact h (Nat.digitChar_eq_zero.1 (Option.some.inj hzero))
    next hge =>
      have hrec := ih (n / 10) (by omega) (by omega)
      rw [List.head?_append]
      obtain ⟨c, more, hc⟩ : ∃ c more, Nat.toDigits 10 (n / 10) = c :: more :=
        List.exists_cons_of_ne_nil Nat.toDigits_ne_nil
      rw [hc] at hrec ⊢
      exact hrec

/-! ## Whole numbers -/

/-- The numeral of a whole number. -/
def Numeral.ofInt (n : Int) : Numeral where
  negative := n < 0
  whole := Nat.toDigits 10 n.natAbs
  fraction := []
  mark := '+'
  exponent := []
  whole_ne := Nat.toDigits_ne_nil
  whole_digits := allDigits_toDigits _
  no_leading_zero := by
    intro hzero
    rcases Nat.eq_zero_or_pos n.natAbs with h | h
    · rw [h]
      exact Nat.toDigits_zero 10
    · exact absurd hzero (head_toDigits (by omega))
  fraction_digits := by simp [AllDigits]
  mark_sign := .inl rfl
  exponent_digits := by simp [AllDigits]

/-- A whole number is written as its numeral. -/
theorem Numeral.text_ofInt (n : Int) : (Numeral.ofInt n).text = (toString n).toList := by
  cases n <;> simp [Numeral.text, Numeral.ofInt, Numeral.signText, Numeral.fractionText,
    Numeral.exponentText, toString, Int.repr]

/-- Whether a whole number has no more digits than a reader takes. -/
def FitsReader (n : Int) : Prop := n.natAbs < Nat.pow 10 Number.maxDigits

/-- The smaller of two counts fits if the greater does. -/
theorem FitsReader.of_le {m n : Nat} (h : FitsReader n) (hle : m ≤ n) : FitsReader m :=
  Nat.lt_of_le_of_lt hle h

/-- Whatever has at most twenty digits fits. -/
theorem fitsReader_of_lt {n : Int} (h : n.natAbs < 100000000000000000000) : FitsReader n := by
  have htwenty : Nat.pow 10 20 ≤ Nat.pow 10 Number.maxDigits := Number.pow_ten_le (by decide)
  exact Nat.lt_of_lt_of_le h htwenty

/-- **A whole number is read back.** -/
theorem readNumber_int {n : Int} (h : FitsReader n) {rest : List Char} (hr : EndsNumber rest)
    (pos : Nat) :
    readNumber ⟨(toString n).toList ++ rest, pos⟩ =
      .ok (.int n, ⟨rest, pos + (toString n).toList.length⟩) := by
  have hlen : (Numeral.ofInt n).whole.length ≤ Number.maxDigits := by
    have hpos : 0 < Number.maxDigits := by decide
    unfold FitsReader at h
    -- the power is too large to be evaluated
    generalize Number.maxDigits = most at h hpos ⊢
    exact (Nat.length_toDigits_le_iff (by decide) hpos).2 h
  have hdigits : Number.digitsNumber (Numeral.ofInt n).whole = n.natAbs :=
    Nat.ofDigitChars_ten_toDigits
  have hread := (Numeral.ofInt n).readNumber_text hr pos hlen
  rw [Numeral.text_ofInt, hdigits] at hread
  rw [hread]
  have hwhole : (Numeral.ofInt n).isWhole = true := rfl
  have hvalue : (if (Numeral.ofInt n).negative then -(n.natAbs : Int) else n.natAbs) = n := by
    simp only [Numeral.ofInt, decide_eq_true_eq]
    split <;> omega
  rw [if_pos hwhole, hvalue]

/-! ## Doubles -/

variable {digits : List Char}

/-- A text that starts as a text without leading zero has none either. -/
theorem no_leading_zero_of_head {text : List Char} (hz : digits.head? ≠ some '0')
    (h : text.head? = digits.head?) : text.head? = some '0' → text = ['0'] :=
  fun hzero => absurd (h ▸ hzero) hz

/-- Zeros are digits. -/
theorem allDigits_replicate (n : Nat) : AllDigits (List.replicate n '0') := by
  intro c hc
  rw [(List.mem_replicate.1 hc).2]
  decide

/-- Digits after digits are digits. -/
theorem AllDigits.append {more : List Char} (hd : AllDigits digits) (hm : AllDigits more) :
    AllDigits (digits ++ more) := by
  intro c hc
  rcases List.mem_append.1 hc with h | h
  · exact hd c h
  · exact hm c h

/-- What the numeral of a double is: it is not whole, its whole part is short, and it says the
number behind its sign. -/
structure Numeral.Says (n : Numeral) (negative : Bool) (body : List Char) : Prop where
  sign : n.negative = negative
  body : n.whole ++ n.fractionText ++ n.exponentText = body
  not_whole : n.isWhole = false
  short : n.whole.length ≤ Number.maxDigits

/-- **Digits in positional notation are a numeral.** -/
theorem exists_says_positional (negative : Bool) (hne : digits ≠ []) (hd : AllDigits digits)
    (hz : digits.head? ≠ some '0') {whole : Int} (hw : whole ≤ Number.maxDigits) :
    ∃ n : Numeral, n.Says negative (Number.positional digits whole) := by
  have hmax : 1 ≤ Number.maxDigits := by decide
  unfold Number.positional
  split
  next hsmall =>
    refine ⟨⟨negative, ['0'], List.replicate (-whole).toNat '0' ++ digits, '+', [], by simp,
      by simp [AllDigits], by simp, (allDigits_replicate _).append hd, .inl rfl,
      by simp [AllDigits]⟩, rfl, ?_, ?_, hmax⟩
    · simp [Numeral.fractionText, Numeral.exponentText, hne]
    · simp [Numeral.isWhole, hne]
  next hpos =>
  obtain ⟨c, rest, hcons⟩ := List.exists_cons_of_ne_nil hne
  split
  next hlong =>
    have hhead : (digits ++ List.replicate (whole.toNat - digits.length) '0').head? =
        digits.head? := by
      rw [hcons]
      rfl
    refine ⟨⟨negative, digits ++ List.replicate (whole.toNat - digits.length) '0', ['0'], '+', [],
      by simp [hne], hd.append (allDigits_replicate _), no_leading_zero_of_head hz hhead,
      by simp [AllDigits], .inl rfl, by simp [AllDigits]⟩, rfl, ?_, rfl, ?_⟩
    · simp [Numeral.fractionText, Numeral.exponentText]
    · simp only [List.length_append, List.length_replicate]
      omega
  next hshort =>
    -- the point falls between two digits
    obtain ⟨k, hk⟩ : ∃ k, whole.toNat = k + 1 := ⟨whole.toNat - 1, by omega⟩
    rw [hk] at hshort ⊢
    have hhead : (digits.take (k + 1)).head? = digits.head? := by
      rw [hcons]
      rfl
    have htake : digits.take (k + 1) ≠ [] := by
      rw [hcons]
      exact List.cons_ne_nil _ _
    have hdrop : digits.drop (k + 1) ≠ [] := by
      intro h
      rw [List.drop_eq_nil_iff] at h
      exact hshort h
    refine ⟨⟨negative, digits.take (k + 1), digits.drop (k + 1), '+', [], htake,
      fun c hc => hd c (List.mem_of_mem_take hc), no_leading_zero_of_head hz hhead,
      fun c hc => hd c (List.mem_of_mem_drop hc), .inl rfl, by simp [AllDigits]⟩, rfl, ?_, ?_, ?_⟩
    · simp [Numeral.fractionText, Numeral.exponentText, hdrop]
    · simpa [Numeral.isWhole] using hshort
    · simp only [List.length_take]
      omega

/-- **Digits with an exponent are a numeral.** -/
theorem exists_says_scientific (negative : Bool) (hne : digits ≠ []) (hd : AllDigits digits)
    (hz : digits.head? ≠ some '0') (exponent : Int) :
    ∃ n : Numeral, n.Says negative (Number.scientific digits exponent) := by
  have hmax : 1 ≤ Number.maxDigits := by decide
  obtain ⟨c, rest, rfl⟩ := List.exists_cons_of_ne_nil hne
  have hc : c.isDigit := hd c List.mem_cons_self
  have hrest : AllDigits rest := fun d h => hd d (List.mem_cons_of_mem c h)
  generalize hsize : Nat.toDigits 10 exponent.natAbs = size
  have hdsize : AllDigits size := hsize ▸ allDigits_toDigits _
  generalize hexp : (if size.length < 2 then '0' :: size else size) = expDigits
  have hexpne : expDigits ≠ [] := by
    have : size ≠ [] := hsize ▸ Nat.toDigits_ne_nil
    rw [← hexp]
    split
    · exact List.cons_ne_nil _ _
    · exact this
  have hdexp : AllDigits expDigits := by
    rw [← hexp]
    split
    · exact AllDigits.append (allDigits_replicate 1) hdsize
    · exact hdsize
  have hmark : (if exponent < 0 then '-' else '+') = '+' ∨
      (if exponent < 0 then '-' else '+') = '-' := by
    split <;> simp
  refine ⟨⟨negative, [c], rest, if exponent < 0 then '-' else '+', expDigits, by simp,
    by simpa [AllDigits] using hc, ?_, hrest, hmark, hdexp⟩, rfl, ?_, ?_, hmax⟩
  · exact fun h => absurd h hz
  · simp only [Number.scientific]
    rw [hsize, hexp]
    cases rest <;> simp [Numeral.fractionText, Numeral.exponentText, hexpne]
  · simp [Numeral.isWhole, hexpne]

/-- The text of a numeral is its sign and what it says. -/
theorem Numeral.Says.text {n : Numeral} {negative : Bool} {body : List Char}
    (h : n.Says negative body) : n.text = if negative then '-' :: body else body := by
  rw [← h.body, ← h.sign]
  unfold Numeral.text Numeral.signText
  cases n.negative <;> simp

/-- **A magnitude is written as a numeral**, whatever its sign. -/
theorem exists_says_magnitude (negative : Bool) (mantissa power : Nat) :
    ∃ n : Numeral, n.Says negative (Number.magnitudeText mantissa power) := by
  have hmax : 16 ≤ Number.maxDigits := by decide
  unfold Number.magnitudeText
  split
  next =>
    refine ⟨⟨negative, ['0'], ['0'], '+', [], by simp, by simp [AllDigits], by simp,
      by simp [AllDigits], .inl rfl, by simp [AllDigits]⟩, rfl, ?_, rfl, ?_⟩
    · simp [Numeral.fractionText, Numeral.exponentText]
    · exact Nat.le_trans (Nat.le_of_ble_eq_true rfl) hmax
  next hpos =>
    have hne := Number.shortestDigits_ne_zero hpos power
    generalize Number.shortestDigits mantissa power = found at hne ⊢
    have hd := allDigits_toDigits found.1
    have hz := head_toDigits hne
    simp only
    split
    next hplace => exact exists_says_positional negative Nat.toDigits_ne_nil hd hz (by omega)
    next => exact exists_says_scientific negative Nat.toDigits_ne_nil hd hz _

/-- Behind the sign of a numeral stands a digit. -/
theorem Numeral.exists_text_cons (n : Numeral) : ∃ c more, c.isDigit ∧
    (n.text = '-' :: c :: more ∨ n.text = c :: more) := by
  obtain ⟨c, more, hwhole, hc⟩ := n.exists_whole_cons
  refine ⟨c, more ++ n.fractionText ++ n.exponentText, hc, ?_⟩
  unfold Numeral.text Numeral.signText
  rw [hwhole]
  cases n.negative <;> simp

/-- A numeral is not empty. -/
theorem Numeral.text_ne_nil (n : Numeral) : n.text ≠ [] := by
  obtain ⟨c, more, -, h | h⟩ := n.exists_text_cons <;> rw [h] <;> exact List.cons_ne_nil _ _

/-- A numeral does not start with a word. -/
theorem Numeral.text_ne (n : Numeral) (rest : List Char) {c d : Char} {more : List Char}
    (hc : c.isDigit = false) (hd : d.isDigit = false) : n.text ++ rest ≠ c :: d :: more := by
  obtain ⟨e, tail, he, h | h⟩ := n.exists_text_cons <;> rw [h] <;> intro heq
  · exact ne_of_isDigit he hd (List.cons.inj (List.cons.inj heq).2).1
  · exact ne_of_isDigit he hc (List.cons.inj heq).1

/-- A string with the text of a numeral is no word. -/
theorem Numeral.ne_word {n : Numeral} {s : String} (hs : s.toList = n.text) {c d : Char}
    {more : List Char} (hc : c.isDigit = false) (hd : d.isDigit = false) :
    s ≠ String.ofList (c :: d :: more) := by
  rintro rfl
  rw [String.toList_ofList] at hs
  exact n.text_ne [] hc hd (by rw [List.append_nil, ← hs])

/-- **A double is written as a numeral, or as one of three words.** -/
theorem floatText_cases (x : Float) :
    floatText x = "NaN" ∨ floatText x = "Infinity" ∨ floatText x = "-Infinity" ∨
      ∃ (n : Numeral) (negative : Bool) (body : List Char),
        n.Says negative body ∧ (floatText x).toList = n.text := by
  cases hx : Number.Binary.ofFloat x with
  | nan => exact .inl (by simp [floatText, Number.shortest, hx])
  | infinite negative =>
    cases negative with
    | false => exact .inr (.inl (by simp [floatText, Number.shortest, hx]))
    | true => exact .inr (.inr (.inl (by simp [floatText, Number.shortest, hx])))
  | finite negative mantissa power =>
    obtain ⟨n, hn⟩ := exists_says_magnitude negative mantissa power
    have htext : (Number.shortest x).toList = n.text := by
      rw [hn.text]
      simp [Number.shortest, hx]
    refine .inr (.inr (.inr ⟨n, negative, _, hn, ?_⟩))
    unfold floatText
    split
    next h => exact absurd h (Numeral.ne_word htext (by decide) (by decide))
    next h => exact absurd h (Numeral.ne_word htext (by decide) (by decide))
    next h => exact absurd h (Numeral.ne_word htext (by decide) (by decide))
    next => exact htext

end CodeAudit.Json
