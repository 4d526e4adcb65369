import CodeAudit.Proofs.Json.Layout
import CodeAudit.Proofs.Json.Numbers

/-!
# JSON: values without parts are read back

What comes back for a value (`readBack`): the value itself, but for doubles, which come back as the
double their text stands for, and for names that an object has twice, of which the last value
counts. Here it is shown of the values without parts. The statement (`ReadsBack`) leaves open what
follows the value, where it stands and how much fuel is left beyond twice its length, so that it can
be used inside arrays and objects. It is about any layout of the parts.
-/

namespace CodeAudit.Json

open Text

/-! ## What comes back -/

/-- The double that comes back for a double. -/
def floatBack (x : Float) : Float :=
  if floatText x = "NaN" then Number.notANumber
  else if floatText x = "Infinity" then Number.infinity
  else if floatText x = "-Infinity" then -Number.infinity
  else (Number.readFloat? (floatText x).toList).getD Number.notANumber

mutual

/-- The value that comes back for a value. -/
def readBack : Json → Json
  | float x => float (floatBack x)
  | arr items => arr (readBackItems items)
  | obj members => obj (readBackMembers [] members)
  | null => null
  | bool b => bool b
  | int n => int n
  | str s => str s

/-- The items that come back. -/
def readBackItems : List Json → List Json
  | [] => []
  | j :: rest => readBack j :: readBackItems rest

/-- The members that come back, after those already read. -/
def readBackMembers (known : List (String × Json)) : List (String × Json) → List (String × Json)
  | [] => known
  | (name, j) :: rest => readBackMembers (setMember known name (readBack j)) rest

end

/-- Items come back one by one. -/
theorem readBackItems_eq_map (items : List Json) : readBackItems items = items.map readBack := by
  induction items with
  | nil => simp [readBackItems]
  | cons j rest ih => simp [readBackItems, ih]

/-! ## White space -/

/-- A character at which white space ends. -/
def EndsGap (c : Char) : Prop := c ≠ ' ' ∧ c ≠ '\t' ∧ c ≠ '\n' ∧ c ≠ '\r'

instance (c : Char) : Decidable (EndsGap c) := inferInstanceAs (Decidable (_ ∧ _))

/-- **The reader passes a gap** and stops behind it. -/
theorem skipSpace_gap {gap : List Char} (hg : IsGap gap) {c : Char} (hc : EndsGap c)
    (rest : List Char) (pos : Nat) :
    skipSpace ⟨gap ++ c :: rest, pos⟩ = ⟨c :: rest, pos + gap.length⟩ := by
  have hspace : ∀ d ∈ gap, (d == ' ' || d == '\t' || d == '\n' || d == '\r') = true := by
    intro d hd
    rcases hg d hd with rfl | rfl <;> decide
  unfold skipSpace Spot.skipWhile
  simp only
  rw [List.takeWhile_append_of_pos hspace, List.takeWhile_cons_of_neg, List.append_nil]
  · exact skip_append gap (c :: rest) pos
  · obtain ⟨h1, h2, h3, h4⟩ := hc
    simp [h1, h2, h3, h4]

/-- Where no gap is, the reader stays. -/
theorem skipSpace_stay {c : Char} (hc : EndsGap c) (rest : List Char) (pos : Nat) :
    skipSpace ⟨c :: rest, pos⟩ = ⟨c :: rest, pos⟩ :=
  skipSpace_gap (fun _ h => absurd h List.not_mem_nil) hc rest pos

/-- A comma and a closing bracket end a number. -/
theorem endsNumber_mark {d : Char} (hd : d ∈ [',', ']', Char.ofNat 0x7d]) (rest : List Char) :
    EndsNumber (d :: rest) := by
  intro c hc
  obtain rfl := Option.some.inj hc
  simp only [List.mem_cons, List.not_mem_nil, or_false] at hd
  rcases hd with rfl | rfl | rfl <;> decide

/-- A gap before a comma or a closing bracket ends a number. -/
theorem endsNumber_gap {gap : List Char} (hg : IsGap gap) {d : Char}
    (hd : d ∈ [',', ']', Char.ofNat 0x7d]) (rest : List Char) : EndsNumber (gap ++ d :: rest) := by
  cases gap with
  | nil => exact endsNumber_mark hd rest
  | cons x gap =>
    intro c hc
    obtain rfl := Option.some.inj hc
    rcases hg x List.mem_cons_self with rfl | rfl <;> decide

/-! ## Values without parts -/

variable {l : Layout}

/-- A value is read back in a layout, whatever may follow it and wherever it stands. -/
def ReadsBack (l : Layout) (j : Json) : Prop :=
  ∀ (level fuel : Nat) (rest : List Char) (pos : Nat), EndsNumber rest →
    2 * (l.text level j).toList.length ≤ fuel →
    readValue fuel ⟨(l.text level j).toList ++ rest, pos⟩ =
      .ok (readBack j, ⟨rest, pos + (l.text level j).toList.length⟩)

/-- No word starts where a numeral stands. -/
theorem readWord?_numeral (n : Numeral) (rest : List Char) (pos : Nat) :
    readWord? ⟨n.text ++ rest, pos⟩ = none := by
  have hword : ∀ {c d : Char} {more : List Char}, c.isDigit = false → d.isDigit = false →
      (c :: d :: more).isPrefixOf (n.text ++ rest) = false := by
    intro c d more hc hd
    rw [Bool.eq_false_iff]
    intro hp
    obtain ⟨tail, htail⟩ := List.isPrefixOf_iff_prefix.1 hp
    exact n.text_ne rest hc hd htail.symm
  have hnames : readWord?.words.map (·.1) =
      ["null", "true", "false", "NaN", "Infinity", "-Infinity"] := rfl
  unfold readWord?
  rw [List.findSome?_eq_none_iff]
  intro entry hentry
  have hname : entry.1 ∈ readWord?.words.map (·.1) := List.mem_map_of_mem hentry
  simp only [hnames, List.mem_cons, List.not_mem_nil, or_false] at hname
  refine if_neg ?_
  rcases hname with h | h | h | h | h | h <;>
    (simp only [h, String.reduceToList]
     rw [hword (by decide) (by decide)]
     exact Bool.false_ne_true)

/-- **A numeral is read as a number.** -/
theorem readValue_numeral (n : Numeral) (fuel : Nat) (rest : List Char) (pos : Nat) :
    readValue (fuel + 1) ⟨n.text ++ rest, pos⟩ = readNumber ⟨n.text ++ rest, pos⟩ := by
  have hword := readWord?_numeral n rest pos
  obtain ⟨c, more, hc, htext⟩ := n.exists_text_cons
  -- the first character is a digit or a minus
  obtain ⟨d, tail, hd, hcons⟩ : ∃ d tail, (d.isDigit ∨ d = '-') ∧ n.text = d :: tail := by
    rcases htext with h | h
    · exact ⟨'-', _, .inr rfl, h⟩
    · exact ⟨c, _, .inl hc, h⟩
  have hne : ∀ {e : Char}, e.isDigit = false → e ≠ '-' → d ≠ e := by
    intro e he hminus
    rcases hd with hd | rfl
    · exact ne_of_isDigit hd he
    · exact hminus.symm
  have hbrace : ¬ d.toNat = 0x7b := by
    intro h
    have : d = Char.ofNat 0x7b := by rw [← h, Char.ofNat_toNat]
    exact hne (by decide) (by decide) this
  rw [hcons] at hword ⊢
  rw [readValue.eq_def]
  simp only [List.cons_append] at hword ⊢
  split
  next h => exact absurd (List.cons.inj h).1 (hne (by decide) (by decide))
  next h => exact absurd (List.cons.inj h).1 (hne (by decide) (by decide))
  next h =>
    obtain ⟨rfl, -⟩ := List.cons.inj h
    rw [if_neg hbrace, hword]
  next h => exact absurd h (List.cons_ne_nil _ _)

/-- **The six words are read as their values.** -/
theorem readValue_word {word : String} {value : Json} (hmem : (word, value) ∈ readWord?.words)
    (fuel : Nat) (rest : List Char) (pos : Nat) :
    readValue (fuel + 1) ⟨word.toList ++ rest, pos⟩ =
      .ok (value, ⟨rest, pos + word.toList.length⟩) := by
  simp only [readWord?.words, List.mem_cons, Prod.mk.injEq, List.not_mem_nil, or_false] at hmem
  rcases hmem with ⟨rfl, rfl⟩ | ⟨rfl, rfl⟩ | ⟨rfl, rfl⟩ | ⟨rfl, rfl⟩ | ⟨rfl, rfl⟩ | ⟨rfl, rfl⟩ <;>
    rfl

/-- To read a value back it is enough to read its text with a step of fuel. -/
theorem readsBack_of_text {j : Json} {text : List Char}
    (htext : ∀ level, (l.text level j).toList = text) (hne : text ≠ [])
    (hread : ∀ (fuel : Nat) (rest : List Char) (pos : Nat), EndsNumber rest →
      readValue (fuel + 1) ⟨text ++ rest, pos⟩ = .ok (readBack j, ⟨rest, pos + text.length⟩)) :
    ReadsBack l j := by
  intro level fuel rest pos hr hfuel
  rw [htext] at hfuel ⊢
  have hpos : 0 < text.length := List.length_pos_iff.mpr hne
  obtain ⟨fuel, rfl⟩ : ∃ k, fuel = k + 1 := ⟨fuel - 1, by omega⟩
  exact hread fuel rest pos hr

/-- A whole number that fits is read back. -/
theorem readsBack_int {n : Int} (h : FitsReader n) : ReadsBack l (int n) := by
  have htext : ∀ level, (l.text level (int n)).toList = (toString n).toList := by
    intro level
    rw [Layout.text, scalarText]
  refine readsBack_of_text htext ?_ ?_
  · rw [← Numeral.text_ofInt]
    exact (Numeral.ofInt n).text_ne_nil
  · intro fuel rest pos hr
    rw [← Numeral.text_ofInt, readValue_numeral, Numeral.text_ofInt, readNumber_int h hr, readBack]

/-- A string is read back. -/
theorem readsBack_str (s : String) : ReadsBack l (str s) := by
  have htext : ∀ level, (l.text level (str s)).toList = (quote s).toList := by
    intro level
    rw [Layout.text, scalarText]
  refine readsBack_of_text htext ?_ ?_
  · rw [toList_quote]
    exact List.cons_ne_nil _ _
  · intro fuel rest pos hr
    have hread := readString_quote s rest pos
    rw [readBack]
    rw [toList_quote, List.cons_append] at hread ⊢
    rw [readValue.eq_def]
    simp only [hread]
    rfl

/-- A word is read back where it is written. -/
theorem readsBack_word {j : Json} (word : String) (value : Json)
    (hmem : (word, value) ∈ readWord?.words)
    (htext : ∀ level, l.text level j = word) (hback : readBack j = value) : ReadsBack l j := by
  refine readsBack_of_text (fun level => congrArg String.toList (htext level)) ?_ ?_
  · simp only [readWord?.words, List.mem_cons, Prod.mk.injEq, List.not_mem_nil, or_false] at hmem
    rcases hmem with ⟨rfl, -⟩ | ⟨rfl, -⟩ | ⟨rfl, -⟩ | ⟨rfl, -⟩ | ⟨rfl, -⟩ | ⟨rfl, -⟩ <;> simp
  · intro fuel rest pos _
    rw [hback]
    exact readValue_word hmem fuel rest pos

/-- **A double is read back** as the double that its text stands for. -/
theorem readsBack_float (x : Float) : ReadsBack l (float x) := by
  have hwritten : ∀ level, l.text level (float x) = floatText x := by
    intro level
    rw [Layout.text, scalarText]
  have hback : readBack (float x) = float (floatBack x) := by rw [readBack]
  rcases floatText_cases x with h | h | h | ⟨n, negative, body, hn, htext⟩
  · refine readsBack_word "NaN" (float Number.notANumber) (by simp [readWord?.words])
      (fun level => (hwritten level).trans h) ?_
    rw [hback, floatBack, if_pos h]
  · refine readsBack_word "Infinity" (float Number.infinity) (by simp [readWord?.words])
      (fun level => (hwritten level).trans h) ?_
    rw [hback, floatBack, if_neg (by rw [h]; decide), if_pos h]
  · refine readsBack_word "-Infinity" (float (-Number.infinity)) (by simp [readWord?.words])
      (fun level => (hwritten level).trans h) ?_
    rw [hback, floatBack, if_neg (by rw [h]; decide), if_neg (by rw [h]; decide), if_pos h]
  · refine readsBack_of_text (fun level => (congrArg String.toList (hwritten level)).trans htext)
      n.text_ne_nil ?_
    intro fuel rest pos hr
    rw [readValue_numeral, n.readNumber_text hr pos hn.short, hn.not_whole, hback, floatBack,
      if_neg (Numeral.ne_word htext (by decide) (by decide)),
      if_neg (Numeral.ne_word htext (by decide) (by decide)),
      if_neg (Numeral.ne_word htext (by decide) (by decide)), htext]
    rfl

/-! ## Where values start -/

/-- What a value starts with: neither white space, nor a closing bracket, nor a byte order mark. -/
def StartsValue (text : List Char) : Prop :=
  ∃ c more, text = c :: more ∧ EndsGap c ∧ c ≠ ']' ∧ c ≠ Char.ofNat 0xFEFF

/-- A numeral starts a value. -/
theorem startsValue_numeral (n : Numeral) : StartsValue n.text := by
  obtain ⟨c, more, hc, h | h⟩ := n.exists_text_cons
  · exact ⟨'-', c :: more, h, by decide, by decide, by decide⟩
  · refine ⟨c, more, h, ⟨?_, ?_, ?_, ?_⟩, ?_, ?_⟩ <;> exact ne_of_isDigit hc (by decide)

/-- **Every value starts with a character that starts a value.** -/
theorem startsValue_text (l : Layout) (level : Nat) (j : Json) :
    StartsValue (l.text level j).toList := by
  cases j with
  | null =>
    rw [Layout.text, scalarText]
    exact ⟨'n', _, rfl, by decide, by decide, by decide⟩
  | bool b =>
    rw [Layout.text, scalarText]
    cases b with
    | false => exact ⟨'f', _, rfl, by decide, by decide, by decide⟩
    | true => exact ⟨'t', _, rfl, by decide, by decide, by decide⟩
  | int n =>
    rw [Layout.text, scalarText, ← Numeral.text_ofInt]
    exact startsValue_numeral _
  | float x =>
    rw [Layout.text, scalarText]
    rcases floatText_cases x with h | h | h | ⟨n, negative, body, hn, htext⟩
    · exact ⟨'N', "aN".toList, by rw [h]; rfl, by decide, by decide, by decide⟩
    · exact ⟨'I', "nfinity".toList, by rw [h]; rfl, by decide, by decide, by decide⟩
    · exact ⟨'-', "Infinity".toList, by rw [h]; rfl, by decide, by decide, by decide⟩
    · rw [htext]
      exact startsValue_numeral n
  | str s =>
    rw [Layout.text, scalarText, toList_quote]
    exact ⟨'"', _, rfl, by decide, by decide, by decide⟩
  | arr items =>
    cases items with
    | nil =>
      rw [Layout.text]
      exact ⟨'[', _, rfl, by decide, by decide, by decide⟩
    | cons j rest =>
      rw [Layout.text]
      simp only [String.toList_append]
      exact ⟨'[', _, rfl, by decide, by decide, by decide⟩
  | obj members =>
    cases members with
    | nil =>
      rw [Layout.text]
      exact ⟨Char.ofNat 0x7b, _, rfl, by decide, by decide, by decide⟩
    | cons m rest =>
      rw [Layout.text]
      simp only [String.toList_append]
      exact ⟨Char.ofNat 0x7b, _, rfl, by decide, by decide, by decide⟩

/-- What follows does not change where a value starts. -/
theorem StartsValue.append {text : List Char} (ht : StartsValue text) (rest : List Char) :
    StartsValue (text ++ rest) := by
  obtain ⟨c, more, rfl, hc, hb⟩ := ht
  exact ⟨c, more ++ rest, rfl, hc, hb⟩

/-- The reader passes a gap before a value. -/
theorem skipSpace_value {gap : List Char} (hg : IsGap gap) {text : List Char}
    (ht : StartsValue text) (rest : List Char) (pos : Nat) :
    skipSpace ⟨gap ++ (text ++ rest), pos⟩ = ⟨text ++ rest, pos + gap.length⟩ := by
  obtain ⟨c, more, rfl, hc, -⟩ := ht
  exact skipSpace_gap hg hc (more ++ rest) pos

end CodeAudit.Json
