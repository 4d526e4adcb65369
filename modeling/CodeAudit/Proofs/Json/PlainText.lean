import CodeAudit.Proofs.Json.Layout
import CodeAudit.Proofs.Json.Numbers

/-!
# JSON: what is written is plain text

Whatever a value holds, it is written in printable ASCII and the white space of its layout:
everything else stands in strings as an escape. So a file with a value in it has no line end that
reading it would change, and a value on one line has none at all.
-/

namespace CodeAudit.Json

open Text

/-- A printable ASCII character. -/
def IsPlain (c : Char) : Prop := 0x20 ≤ c.toNat ∧ c.toNat < 0x7f

instance (c : Char) : Decidable (IsPlain c) := inferInstanceAs (Decidable (_ ∧ _))

/-- A text of such characters. -/
def PlainText (text : List Char) : Prop := ∀ c ∈ text, IsPlain c

instance (text : List Char) : Decidable (PlainText text) := List.decidableBAll IsPlain text

/-- The empty text is plain. -/
@[simp] theorem plainText_nil : PlainText [] := fun _ h => absurd h List.not_mem_nil

/-- A text is plain if its characters are. -/
@[simp] theorem plainText_cons {c : Char} {text : List Char} :
    PlainText (c :: text) ↔ IsPlain c ∧ PlainText text :=
  List.forall_mem_cons

/-- A text is plain if its parts are. -/
@[simp] theorem plainText_append {text more : List Char} :
    PlainText (text ++ more) ↔ PlainText text ∧ PlainText more :=
  List.forall_mem_append

/-! ## Values without parts -/

/-- Digits are plain. -/
theorem isPlain_of_isDigit {c : Char} (h : c.isDigit) : IsPlain c := by
  simp only [Char.isDigit, Bool.and_eq_true, decide_eq_true_eq, ge_iff_le,
    UInt32.le_iff_toNat_le] at h
  have hrange : 48 ≤ c.toNat ∧ c.toNat ≤ 57 := h
  exact ⟨by omega, by omega⟩

/-- Hexadecimal digits are plain. -/
theorem isPlain_digitChar {n : Nat} (h : n < 16) : IsPlain n.digitChar := by
  have hall : ∀ k : Fin 16, IsPlain k.val.digitChar := by decide
  exact hall ⟨n, h⟩

/-- The escape of a code unit is plain. -/
theorem plainText_unitEscape {n : Nat} (h : n < 0x10000) : PlainText (unitEscape n) := by
  unfold unitEscape
  rw [paddedHex_four h]
  simp only [plainText_cons, plainText_nil, and_true]
  exact ⟨by decide, by decide, isPlain_digitChar (by omega), isPlain_digitChar (by omega),
    isPlain_digitChar (by omega), isPlain_digitChar (by omega)⟩

/-- **Whatever a character is, it stands in a string as plain text.** -/
theorem plainText_escapeChar (c : Char) : PlainText (escapeChar c) := by
  have hc := toNat_lt c
  unfold escapeChar
  split
  iterate 7 decide
  simp only
  split
  next hplain => exact plainText_cons.2 ⟨hplain, plainText_nil⟩
  split
  next hbasic => exact plainText_unitEscape hbasic
  next hbasic =>
    exact plainText_append.2 ⟨plainText_unitEscape (by omega), plainText_unitEscape (by omega)⟩

/-- A string in quotes is plain. -/
theorem plainText_quote (s : String) : PlainText (quote s).toList := by
  have hbody : PlainText (s.toList.flatMap escapeChar) := by
    intro d hd
    obtain ⟨c, -, hc⟩ := List.mem_flatMap.1 hd
    exact plainText_escapeChar c d hc
  rw [toList_quote]
  simp only [plainText_cons, plainText_append]
  exact ⟨by decide, hbody, by decide⟩

/-- Digits make plain text. -/
theorem AllDigits.plainText {digits : List Char} (h : AllDigits digits) : PlainText digits :=
  fun c hc => isPlain_of_isDigit (h c hc)

/-- A numeral is plain. -/
theorem Numeral.plainText_text (n : Numeral) : PlainText n.text := by
  have hsign : PlainText n.signText := by
    unfold signText
    split <;> decide
  have hfraction : PlainText n.fractionText := by
    unfold fractionText
    split
    · decide
    · exact plainText_cons.2 ⟨by decide, n.fraction_digits.plainText⟩
  have hexponent : PlainText n.exponentText := by
    unfold exponentText
    split
    · decide
    · have hmark : IsPlain n.mark := by
        rcases n.mark_sign with h | h <;> rw [h] <;> decide
      simp only [plainText_cons]
      exact ⟨by decide, hmark, n.exponent_digits.plainText⟩
  unfold text
  simp only [plainText_append]
  exact ⟨⟨⟨hsign, n.whole_digits.plainText⟩, hfraction⟩, hexponent⟩

/-- A double is written as plain text. -/
theorem plainText_floatText (x : Float) : PlainText (floatText x).toList := by
  rcases floatText_cases x with h | h | h | ⟨n, -, -, -, h⟩
  · rw [h]; decide
  · rw [h]; decide
  · rw [h]; decide
  · rw [h]; exact n.plainText_text

/-! ## Values with parts -/

variable {l : Layout} {P : Char → Prop}

/-- Printable characters and the white space of a layout are of a kind. -/
structure Layout.Admits (l : Layout) (P : Char → Prop) : Prop where
  plain : ∀ c, IsPlain c → P c
  edge : ∀ level, ∀ c ∈ (l.edge level).toList, P c
  next : ∀ level, ∀ c ∈ (l.next level).toList, P c

namespace Layout

theorem Admits.of_plain (h : l.Admits P) {text : List Char} (htext : PlainText text) :
    ∀ c ∈ text, P c :=
  fun c hc => h.plain c (htext c hc)

mutual

/-- **Every value is written in characters of the kind**, at every level. -/
theorem Admits.text (h : l.Admits P) (level : Nat) (j : Json) :
    ∀ c ∈ (l.text level j).toList, P c := by
  match j with
  | arr [] => rw [Layout.text]; exact h.of_plain (by decide)
  | arr (j :: rest) =>
    rw [Layout.text]
    simp only [String.toList_append, List.forall_mem_append]
    exact ⟨⟨⟨⟨h.of_plain (by decide), h.edge _⟩, h.itemsText _ _⟩, h.edge _⟩,
      h.of_plain (by decide)⟩
  | obj [] => rw [Layout.text]; exact h.of_plain (by decide)
  | obj (m :: rest) =>
    rw [Layout.text]
    simp only [String.toList_append, List.forall_mem_append]
    exact ⟨⟨⟨⟨h.of_plain (by decide), h.edge _⟩, h.membersText _ _⟩, h.edge _⟩,
      h.of_plain (by decide)⟩
  | null => rw [Layout.text]; exact h.of_plain (by decide)
  | bool b => rw [Layout.text]; cases b <;> exact h.of_plain (by decide)
  | int n =>
    rw [Layout.text, scalarText, ← Numeral.text_ofInt]
    exact h.of_plain (Numeral.ofInt n).plainText_text
  | float x => rw [Layout.text]; exact h.of_plain (plainText_floatText x)
  | str s => rw [Layout.text]; exact h.of_plain (plainText_quote s)

/-- Items are written in characters of the kind. -/
theorem Admits.itemsText (h : l.Admits P) (level : Nat) (items : List Json) :
    ∀ c ∈ (l.itemsText level items).toList, P c := by
  match items with
  | [] => rw [Layout.itemsText]; exact h.of_plain (by decide)
  | [j] => rw [Layout.itemsText]; exact h.text level j
  | j :: k :: rest =>
    rw [Layout.itemsText]
    · simp only [String.toList_append, List.forall_mem_append]
      exact ⟨⟨⟨h.text level j, h.of_plain (by decide)⟩, h.next level⟩,
        h.itemsText level (k :: rest)⟩
    · simp

/-- Members are written in characters of the kind. -/
theorem Admits.membersText (h : l.Admits P) (level : Nat) (members : List (String × Json)) :
    ∀ c ∈ (l.membersText level members).toList, P c := by
  match members with
  | [] => rw [Layout.membersText]; exact h.of_plain (by decide)
  | [(name, j)] =>
    rw [Layout.membersText]
    simp only [String.toList_append, List.forall_mem_append]
    exact ⟨⟨h.of_plain (plainText_quote name), h.of_plain (by decide)⟩, h.text level j⟩
  | (name, j) :: k :: rest =>
    rw [Layout.membersText]
    · simp only [String.toList_append, List.forall_mem_append]
      exact ⟨⟨⟨⟨⟨h.of_plain (plainText_quote name), h.of_plain (by decide)⟩, h.text level j⟩,
        h.of_plain (by decide)⟩, h.next level⟩, h.membersText level (k :: rest)⟩
    · simp

end

end Layout

/-- No value is written with a carriage return. -/
theorem return_not_mem_indented (j : Json) : '\r' ∉ (indented j).toList := by
  have hgap : ∀ level, ∀ c ∈ (newLine level).toList, c ≠ '\r' := by
    intro level c hc
    rcases isGap_newLine level c hc with rfl | rfl <;> decide
  have hkind : Layout.spread.Admits (· ≠ '\r') :=
    ⟨fun c hc => by rintro rfl; exact absurd hc (by decide), hgap, hgap⟩
  rw [indented, ← Layout.text_spread]
  exact fun h => hkind.text 0 j _ h rfl

end CodeAudit.Json
