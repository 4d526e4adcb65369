import CodeAudit.Json.Reader
import CodeAudit.Json.Writer

/-!
# JSON: strings read back

A string is written character by character, and each written character is read back by one step of
the reader: as itself, through an escape letter, through one code unit, or through a pair of them.
The reader looks ahead in two places, for the closing quote after four hexadecimal digits and for
the second half of a pair, so the step lemma asks that something follows and the pair is read in
one step.
-/

namespace CodeAudit.Json

open Text

/-! ## Places -/

/-- Passing a text leaves what follows it. -/
theorem skip_append (text rest : List Char) (pos : Nat) :
    (Spot.mk (text ++ rest) pos).skip text.length = ⟨rest, pos + text.length⟩ := by
  simp [Spot.skip]

/-- Passing one character. -/
@[simp] theorem skip_one (c : Char) (rest : List Char) (pos : Nat) :
    (Spot.mk (c :: rest) pos).skip 1 = ⟨rest, pos + 1⟩ := rfl

/-! ## Code units -/

/-- A hexadecimal digit that is written is read back. -/
theorem hexDigit?_digitChar {d : Nat} (h : d < 16) : hexDigit? d.digitChar = some d := by
  have hall : ∀ d : Fin 16, hexDigit? (Nat.digitChar d) = some d.val := by decide
  exact hall ⟨d, h⟩

/-- The four digits of a code unit. -/
theorem paddedHex_four {n : Nat} (h : n < 0x10000) :
    paddedHex 4 n = [(n / 4096).digitChar, (n / 256 % 16).digitChar, (n / 16 % 16).digitChar,
      (n % 16).digitChar] := by
  unfold paddedHex
  rcases Nat.lt_or_ge n 16 with h1 | h1
  · rw [Nat.toDigits_of_lt_base h1]
    simp only [List.length_singleton, List.replicate, List.cons_append, List.nil_append]
    rw [Nat.div_eq_of_lt (by omega), Nat.div_eq_of_lt (by omega), Nat.div_eq_of_lt (by omega),
      Nat.mod_eq_of_lt h1]
    rfl
  rw [Nat.toDigits_of_base_le (by omega) h1]
  rcases Nat.lt_or_ge (n / 16) 16 with h2 | h2
  · rw [Nat.toDigits_of_lt_base h2]
    simp only [List.cons_append, List.nil_append, List.length_cons, List.length_nil,
      List.replicate]
    rw [Nat.div_eq_of_lt (by omega : n < 4096), Nat.div_eq_of_lt (by omega : n < 256),
      Nat.mod_eq_of_lt h2]
    rfl
  rw [Nat.toDigits_of_base_le (by omega) h2, Nat.div_div_eq_div_mul]
  rcases Nat.lt_or_ge (n / (16 * 16)) 16 with h3 | h3
  · rw [Nat.toDigits_of_lt_base h3]
    simp only [List.cons_append, List.nil_append, List.length_cons, List.length_nil,
      List.replicate]
    rw [Nat.div_eq_of_lt (by omega : n < 4096), Nat.mod_eq_of_lt h3]
    rfl
  rw [Nat.toDigits_of_base_le (by omega) h3, Nat.div_div_eq_div_mul,
    Nat.toDigits_of_lt_base (by omega)]
  rfl

/-- **A code unit that is written is read back**, whatever follows. -/
theorem hex4?_paddedHex {n : Nat} (h : n < 0x10000) (rest : List Char) :
    hex4? (paddedHex 4 n ++ rest) = some n := by
  rw [paddedHex_four h]
  simp only [List.cons_append, hex4?]
  rw [hexDigit?_digitChar (by omega), hexDigit?_digitChar (by omega),
    hexDigit?_digitChar (by omega), hexDigit?_digitChar (by omega)]
  simp only [Option.bind_eq_bind, Option.bind_some, Option.pure_def, Option.some.injEq]
  omega

/-- A code unit takes four digits. -/
theorem length_paddedHex {n : Nat} (h : n < 0x10000) : (paddedHex 4 n).length = 4 := by
  rw [paddedHex_four h]
  rfl

/-- Characters end below `0x110000`. -/
theorem toNat_lt (c : Char) : c.toNat < 0x110000 := by
  have hv : c.toNat.isValidChar := c.valid
  simp only [Nat.isValidChar] at hv
  omega

/-- A character of the basic plane is no half of a pair. -/
theorem unitChar_toNat {c : Char} (h : c.toNat < 0x10000) : unitChar c.toNat = c := by
  have hv : c.toNat.isValidChar := c.valid
  have hh : isHighUnit c.toNat = false := by
    simp only [isHighUnit, Bool.and_eq_false_iff, decide_eq_false_iff_not, Nat.isValidChar] at hv ⊢
    omega
  have hl : isLowUnit c.toNat = false := by
    simp only [isLowUnit, Bool.and_eq_false_iff, decide_eq_false_iff_not, Nat.isValidChar] at hv ⊢
    omega
  simp [unitChar, hh, hl, Char.ofNat_toNat]

/-- One code unit is read as its character. -/
theorem readUnicode_unit {c : Char} (h : c.toNat < 0x10000) {rest : List Char} (hr : rest ≠ [])
    (pos : Nat) : readUnicode (paddedHex 4 c.toNat ++ rest) pos = .ok (c, 4) := by
  have hlen := length_paddedHex h
  have hpos : 0 < rest.length := List.length_pos_iff.mpr hr
  have hdrop : (paddedHex 4 c.toNat ++ rest).drop 4 = rest := List.drop_left' hlen
  have hhigh : ¬ isHighUnit c.toNat := by
    have hv : c.toNat.isValidChar := c.valid
    simp only [isHighUnit, Bool.and_eq_true, decide_eq_true_eq, Nat.isValidChar] at hv ⊢
    omega
  unfold readUnicode
  rw [if_neg (by rw [List.length_append]; omega), hex4?_paddedHex h, hdrop]
  simp only [unitChar_toNat h]
  split <;> simp [hhigh]

/-- **Two code units are read as one character** beyond the basic plane. -/
theorem readUnicode_pair {c : Char} {hi lo : Nat} (hc : 0x10000 ≤ c.toNat)
    (hhi : hi = 0xD800 + (c.toNat - 0x10000) / 0x400)
    (hlo : lo = 0xDC00 + (c.toNat - 0x10000) % 0x400) {rest : List Char} (hr : rest ≠ [])
    (pos : Nat) :
    readUnicode (paddedHex 4 hi ++ '\\' :: 'u' :: (paddedHex 4 lo ++ rest)) pos
      = .ok (c, 10) := by
  have hv := toNat_lt c
  have hhi1 : hi < 0x10000 := by omega
  have hlo1 : lo < 0x10000 := by omega
  have hlenhi := length_paddedHex hhi1
  have hlenlo := length_paddedHex hlo1
  have hpos : 0 < rest.length := List.length_pos_iff.mpr hr
  have hhigh : isHighUnit hi = true := by
    simp only [isHighUnit, Bool.and_eq_true, decide_eq_true_eq]
    omega
  have hlow : isLowUnit lo = true := by
    simp only [isLowUnit, Bool.and_eq_true, decide_eq_true_eq]
    omega
  have hchar : Char.ofNat (0x10000 + (hi - 0xD800) * 0x400 + (lo - 0xDC00)) = c := by
    rw [show 0x10000 + (hi - 0xD800) * 0x400 + (lo - 0xDC00) = c.toNat by omega]
    exact Char.ofNat_toNat c
  unfold readUnicode
  rw [if_neg (by simp only [List.length_append, List.length_cons]; omega), hex4?_paddedHex hhi1,
    List.drop_left' hlenhi]
  simp only
  rw [if_pos ⟨hhigh, by rw [List.length_append]; omega⟩, hex4?_paddedHex hlo1]
  simp only
  rw [if_pos hlow, hchar]

/-! ## Strings -/

/-- A printable character that is neither quote nor backslash stands for itself. -/
theorem readString_plain (start fuel : Nat) {c : Char} (hquote : c ≠ '"') (hback : c ≠ '\\')
    (hc : 0x20 ≤ c.toNat) (rest : List Char) (pos : Nat) (read : List Char) :
    readString start (fuel + 1) ⟨c :: rest, pos⟩ read =
      readString start fuel ⟨rest, pos + 1⟩ (c :: read) := by
  have hctl : ¬ c.toNat < 0x20 := by omega
  rw [readString.eq_def]
  simp only
  split
  next h => simp at h
  next h => exact absurd (List.cons.inj h).1 hquote
  next h => exact absurd (List.cons.inj h).1 hback
  next h => exact absurd (List.cons.inj h).1 hback
  next h => exact absurd (List.cons.inj h).1 hback
  next h =>
    obtain ⟨rfl, -⟩ := List.cons.inj h
    rw [if_neg hctl, skip_one]

/-- An escape of code units is read as the character they stand for. -/
theorem readString_unicode (start fuel : Nat) {digits : List Char} {pos n : Nat} {c : Char}
    (h : readUnicode digits pos = .ok (c, n)) (read : List Char) :
    readString start (fuel + 1) ⟨'\\' :: 'u' :: digits, pos⟩ read =
      readString start fuel ⟨digits.drop n, pos + (2 + n)⟩ (c :: read) := by
  have hskip : (Spot.mk ('\\' :: 'u' :: digits) pos).skip (2 + n) =
      ⟨digits.drop n, pos + (2 + n)⟩ := by
    simp [Spot.skip, Nat.add_comm 2 n]
  rw [readString.eq_def]
  simp only [h]
  rw [← hskip]
  rfl

/-- **One step of the reader reads one written character back**, if anything follows it. -/
theorem readString_escapeChar (start fuel : Nat) (c : Char) {rest : List Char} (hr : rest ≠ [])
    (pos : Nat) (read : List Char) :
    readString start (fuel + 1) ⟨escapeChar c ++ rest, pos⟩ read =
      readString start fuel ⟨rest, pos + (escapeChar c).length⟩ (c :: read) := by
  unfold escapeChar
  split
  iterate 7 · rfl
  next hquote hback _ _ _ _ _ =>
  simp only
  split
  next hp => exact readString_plain start fuel hquote hback hp.1 rest pos read
  split
  next hb =>
    have hlen := length_paddedHex hb
    simp only [unitEscape, List.cons_append, List.length_cons, hlen]
    rw [readString_unicode start fuel (readUnicode_unit hb hr pos), List.drop_left' hlen]
  next hb =>
    obtain ⟨hi, hhi⟩ : ∃ hi, hi = 0xD800 + (c.toNat - 0x10000) / 0x400 := ⟨_, rfl⟩
    obtain ⟨lo, hlo⟩ : ∃ lo, lo = 0xDC00 + (c.toNat - 0x10000) % 0x400 := ⟨_, rfl⟩
    have hpair := readUnicode_pair (by omega : 0x10000 ≤ c.toNat) hhi hlo hr pos
    have hv : c.toNat < 0x110000 := toNat_lt c
    have hlenhi : (paddedHex 4 hi).length = 4 := length_paddedHex (by omega)
    have hlenlo : (paddedHex 4 lo).length = 4 := length_paddedHex (by omega)
    rw [← hhi, ← hlo]
    simp only [unitEscape, List.cons_append, List.append_assoc, List.length_cons,
      List.length_append, hlenhi, hlenlo]
    rw [readString_unicode start fuel hpair]
    have hdrop : (paddedHex 4 hi ++ '\\' :: 'u' :: (paddedHex 4 lo ++ rest)).drop 10 = rest := by
      rw [List.drop_append, hlenhi, List.drop_of_length_le (by omega)]
      exact List.drop_left' hlenlo
    rw [hdrop]

/-- **A written string is read back**: the characters follow those already read. -/
theorem readString_flatMap (start : Nat) (chars rest : List Char) :
    ∀ (fuel pos : Nat) (read : List Char), chars.length < fuel →
      readString start fuel ⟨chars.flatMap escapeChar ++ '"' :: rest, pos⟩ read =
        .ok (String.ofList (read.reverse ++ chars),
          ⟨rest, pos + (chars.flatMap escapeChar).length + 1⟩) := by
  induction chars with
  | nil =>
    intro fuel pos read hfuel
    obtain ⟨fuel, rfl⟩ : ∃ n, fuel = n + 1 := ⟨fuel - 1, by simp at hfuel; omega⟩
    simp [readString]
  | cons c chars ih =>
    intro fuel pos read hfuel
    simp only [List.length_cons] at hfuel
    obtain ⟨fuel, rfl⟩ : ∃ n, fuel = n + 1 := ⟨fuel - 1, by omega⟩
    rw [List.flatMap_cons, List.append_assoc, readString_escapeChar start fuel c (by simp),
      ih fuel _ _ (by omega)]
    simp [Nat.add_assoc]

/-- Every character is written as at least one. -/
theorem length_le_flatMap_escapeChar (chars : List Char) :
    chars.length ≤ (chars.flatMap escapeChar).length := by
  induction chars with
  | nil => exact Nat.le_refl _
  | cons c chars ih =>
    have hpos : 0 < (escapeChar c).length := by
      unfold escapeChar
      split
      iterate 7 · exact Nat.succ_pos _
      simp only
      split
      · exact Nat.succ_pos _
      split <;> exact Nat.succ_pos _
    rw [List.flatMap_cons, List.length_append, List.length_cons]
    omega

/-- The characters of a string in quotes. -/
theorem toList_quote (s : String) :
    (quote s).toList = '"' :: (s.toList.flatMap escapeChar ++ ['"']) := by
  simp [quote]

/-- **A string in quotes is read back** from behind its opening quote. -/
theorem readString_quote (s : String) (rest : List Char) (pos : Nat) :
    readString pos (((quote s).toList ++ rest).length + 1)
        ((Spot.mk ((quote s).toList ++ rest) pos).skip 1) [] =
      .ok (s, ⟨rest, pos + (quote s).toList.length⟩) := by
  have hlen := length_le_flatMap_escapeChar s.toList
  rw [toList_quote, List.cons_append, skip_one, List.append_assoc, List.singleton_append,
    readString_flatMap pos s.toList rest _ _ _ (by
      simp only [List.length_cons, List.length_append]; omega)]
  simp [Nat.add_assoc, Nat.add_comm 1]

end CodeAudit.Json
