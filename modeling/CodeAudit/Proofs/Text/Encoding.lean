import CodeAudit.Text.Lines
import CodeAudit.Text.Utf8

/-!
# Text on the disk

Text that is written as UTF-8 is read back character by character, whatever the characters are.
Reading then unifies line ends, which changes nothing in a text without carriage returns.

The bounds of a second byte keep out overlong forms, halves of pairs and what lies beyond the last
character. A character is none of these, so the bytes written for it stay within the bounds
(`secondBounds_three`, `secondBounds_four`).
-/

namespace CodeAudit.Text.Utf8

/-- A byte holds the numbers below 256. -/
theorem toNat_byte {n : Nat} (h : n < 256) : (UInt8.ofNat n).toNat = n := by
  rw [UInt8.toNat_ofNat']
  exact Nat.mod_eq_of_lt h

/-- A continuation byte carries six bits. -/
theorem toNat_tail (k : Nat) : (UInt8.ofNat (0x80 + k % 64)).toNat = 0x80 + k % 64 :=
  toNat_byte (by omega)

/-- A continuation byte lies within the bounds of one. -/
theorem within_tail (k : Nat) : within 0x80 0xBF (UInt8.ofNat (0x80 + k % 64)) := by
  unfold within
  rw [toNat_tail]
  simp only [Bool.and_eq_true, decide_eq_true_eq]
  omega

/-- The bits of a continuation byte. -/
theorem tailBits_tail (k : Nat) : tailBits (UInt8.ofNat (0x80 + k % 64)) = k % 64 := by
  unfold tailBits
  rw [toNat_tail]
  omega

/-- The second of two bytes. -/
theorem secondBounds_two {n : Nat} (hlo : 0x80 ≤ n) (hhi : n < 0x800) :
    secondBounds (UInt8.ofNat (0xC0 + n / 64)) = some (2, 0x80, 0xBF) := by
  unfold secondBounds
  simp only [toNat_byte (by omega : 0xC0 + n / 64 < 256)]
  exact if_pos (by omega)

/-- **The second of three bytes** is large enough not to be overlong and small enough not to start
half a pair. -/
theorem secondBounds_three {n : Nat} (hlo : 0x800 ≤ n) (hhi : n < 0x10000)
    (hpair : n < 0xD800 ∨ 0xDFFF < n) :
    ∃ lo hi, secondBounds (UInt8.ofNat (0xE0 + n / 0x1000)) = some (3, lo, hi) ∧
      within lo hi (UInt8.ofNat (0x80 + n / 64 % 64)) := by
  unfold secondBounds within
  simp only [toNat_byte (by omega : 0xE0 + n / 0x1000 < 256), toNat_tail, Bool.and_eq_true,
    decide_eq_true_eq]
  rw [if_neg (by omega)]
  split
  next h => exact ⟨_, _, rfl, by omega, by omega⟩
  split
  next h => exact ⟨_, _, rfl, by omega, by omega⟩
  rw [if_pos (by omega)]
  exact ⟨_, _, rfl, by omega, by omega⟩

/-- **The second of four bytes** keeps within the last plane. -/
theorem secondBounds_four {n : Nat} (hlo : 0x10000 ≤ n) (hhi : n < 0x110000) :
    ∃ lo hi, secondBounds (UInt8.ofNat (0xF0 + n / 0x40000)) = some (4, lo, hi) ∧
      within lo hi (UInt8.ofNat (0x80 + n / 0x1000 % 64)) := by
  unfold secondBounds within
  simp only [toNat_byte (by omega : 0xF0 + n / 0x40000 < 256), toNat_tail, Bool.and_eq_true,
    decide_eq_true_eq]
  rw [if_neg (by omega), if_neg (by omega), if_neg (by omega), if_neg (by omega)]
  split
  next h => exact ⟨_, _, rfl, by omega, by omega⟩
  split
  next h => exact ⟨_, _, rfl, by omega, by omega⟩
  rw [if_pos (by omega)]
  exact ⟨_, _, rfl, by omega, by omega⟩

/-- **The bytes of a character are read as that character**, whatever follows. -/
theorem head_encodeChar (c : Char) (rest : List UInt8) :
    ∃ first tail, encodeChar c = first :: tail ∧
      head first (tail ++ rest) = .char c (tail.length + 1) := by
  have hv : c.toNat.isValidChar := c.valid
  simp only [Nat.isValidChar] at hv
  have hchar : ∀ {k : Nat}, k = c.toNat → Char.ofNat k = c := by
    rintro k rfl
    exact Char.ofNat_toNat c
  unfold encodeChar
  simp only
  split
  next h1 =>
    refine ⟨_, _, rfl, ?_⟩
    have hfirst := toNat_byte (by omega : c.toNat < 256)
    unfold head
    rw [if_pos (by omega), hfirst, hchar rfl]
    rfl
  next h1 =>
  split
  next h2 =>
    refine ⟨_, _, rfl, ?_⟩
    have hfirst := toNat_byte (by omega : 0xC0 + c.toNat / 64 < 256)
    unfold head
    rw [if_neg (by omega), secondBounds_two (by omega) h2]
    simp only [List.cons_append, List.nil_append, within_tail, tailBits_tail, hfirst,
      Bool.not_true, Bool.false_eq_true, if_false, if_true]
    rw [hchar (by omega)]
    rfl
  next h2 =>
  split
  next h3 =>
    refine ⟨_, _, rfl, ?_⟩
    have hfirst := toNat_byte (by omega : 0xE0 + c.toNat / 0x1000 < 256)
    obtain ⟨lo, hi, hbounds, hin⟩ := secondBounds_three (by omega) h3 (by omega)
    unfold head
    rw [if_neg (by omega), hbounds]
    simp only [List.cons_append, List.nil_append, hin, within_tail, tailBits_tail, hfirst,
      Bool.not_true, Bool.false_eq_true, if_false, if_true, Nat.reduceEqDiff]
    rw [hchar (by omega)]
    rfl
  next h3 =>
    refine ⟨_, _, rfl, ?_⟩
    have hfirst := toNat_byte (by omega : 0xF0 + c.toNat / 0x40000 < 256)
    obtain ⟨lo, hi, hbounds, hin⟩ := secondBounds_four (n := c.toNat) (by omega) (by omega)
    unfold head
    rw [if_neg (by omega), hbounds]
    simp only [List.cons_append, List.nil_append, hin, within_tail, tailBits_tail, hfirst,
      Bool.not_true, Bool.false_eq_true, if_false, Nat.reduceEqDiff]
    rw [hchar (by omega)]
    rfl

/-- The remaining bytes of a sequence are passed over. -/
theorem decodeFrom_skip (skipped rest : List UInt8) (position : Nat) :
    decodeFrom position skipped.length (skipped ++ rest) =
      decodeFrom (position + skipped.length) 0 rest := by
  induction skipped generalizing position with
  | nil => rfl
  | cons b skipped ih =>
    rw [List.length_cons, List.cons_append, decodeFrom, ih]
    congr 1
    omega

/-- **The bytes of a text start with those of its first character**, which is read from them. -/
theorem exists_encode_cons (c : Char) (text : List Char) :
    ∃ first tail, encode (c :: text) = first :: (tail ++ encode text) ∧
      head first (tail ++ encode text) = .char c (tail.length + 1) := by
  obtain ⟨first, tail, hbytes, hhead⟩ := head_encodeChar c (encode text)
  refine ⟨first, tail, ?_, hhead⟩
  rw [encode, List.flatMap_cons, hbytes]
  rfl

/-- What is decoded at the start of a text can be decoded at any position. -/
theorem decodeFrom_encode (text : List Char) (position : Nat) :
    decodeFrom position 0 (encode text) = .ok text := by
  induction text generalizing position with
  | nil => rfl
  | cons c text ih =>
    obtain ⟨first, tail, hcons, hhead⟩ := exists_encode_cons c text
    rw [hcons, decodeFrom, hhead]
    simp only [Nat.add_sub_cancel, decodeFrom_skip, ih]
    rfl

/-- **What is written is read back.** -/
theorem decode_encode (text : List Char) : decode (encode text) = .ok text :=
  decodeFrom_encode text 0

/-- A character has as many bytes as its size says. -/
theorem length_encodeChar (c : Char) : (encodeChar c).length = c.utf8Size := by
  have hsize : c.utf8Size = if c.toNat < 0x80 then 1 else if c.toNat < 0x800 then 2
      else if c.toNat < 0x10000 then 3 else 4 := by
    simp only [Char.utf8Size, UInt32.le_iff_toNat_le, UInt32.toNat_ofNatLT, Char.toNat_val,
      ← Nat.lt_succ_iff, Nat.succ_eq_add_one, Nat.reduceAdd]
  rw [hsize, encodeChar]
  simp only [apply_ite List.length, List.length_cons, List.length_nil, Nat.reduceAdd]

/-- A text has as many bytes as its size says. -/
theorem length_encode (s : String) : (encode s.toList).length = s.utf8ByteSize := by
  have hsize : ∀ text, (encode text).length = (String.ofList text).utf8ByteSize := by
    intro text
    induction text with
    | nil => rfl
    | cons c text ih =>
      rw [encode, List.flatMap_cons, List.length_append, length_encodeChar, String.ofList_cons,
        String.utf8ByteSize_append, String.utf8ByteSize_singleton, ← ih, encode]
  rw [hsize, String.ofList_toList]

end CodeAudit.Text.Utf8

namespace CodeAudit.Text

/-- No carriage return is left. -/
theorem not_mem_unifyNewlines {text : List Char} : '\r' ∉ unifyNewlines text := by
  fun_induction unifyNewlines text with
  | case1 => simp
  | case2 rest ih => simpa using ih
  | case3 c rest _ ih =>
    rw [List.mem_cons, not_or]
    refine ⟨?_, ih⟩
    split
    · decide
    next hc => exact fun h => hc h.symm

/-- A text without carriage returns keeps its line ends. -/
theorem unifyNewlines_of_not_mem {text : List Char} (h : '\r' ∉ text) :
    unifyNewlines text = text := by
  fun_induction unifyNewlines text with
  | case1 => rfl
  | case2 rest ih => exact absurd List.mem_cons_self h
  | case3 c rest hreturn ih =>
    rw [List.mem_cons, not_or] at h
    rw [if_neg (Ne.symm h.1), ih h.2]

end CodeAudit.Text
