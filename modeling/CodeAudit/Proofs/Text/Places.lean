import CodeAudit.Proofs.Text.Encoding
import Mathlib.Data.List.Induction
import Mathlib.Data.List.TakeWhile

/-!
# Two ways to say where a character stands

A reader of a text sees a character in one of its lines (`splitLines`), a number of characters from
the start of that line. A reader of source counts line feeds, and the bytes since the last one. Both
places are functions of the text before the character. They are the same line exactly if no line
before the character ends with anything but a line feed, and then the same column exactly if each
character before it on the line is one byte.
-/

namespace CodeAudit.Text

/-! ## The rest of a text behind its last mark -/

/-- The characters behind the last one that passes a test. -/
def sinceLast (test : Char → Bool) (text : List Char) : List Char :=
  (text.reverse.takeWhile (!test ·)).reverse

variable {test : Char → Bool} {a b before after text : List Char} {c : Char} {k : Nat}

theorem sinceLast_snoc :
    sinceLast test (a ++ [c]) = if test c then [] else sinceLast test a ++ [c] := by
  cases h : test c <;> simp [sinceLast, h]

theorem sinceLast_append_cons (h : test c = true) :
    sinceLast test (a ++ c :: b) = sinceLast test b := by
  induction b using List.reverseRecOn with
  | nil => simp [sinceLast, h]
  | append_singleton b x ih =>
    rw [← List.cons_append, ← List.append_assoc, sinceLast_snoc, sinceLast_snoc, ih]

theorem sinceLast_eq_self (h : ∀ c ∈ text, test c = false) : sinceLast test text = text := by
  rw [sinceLast, List.takeWhile_eq_self_iff.2 fun c hc => by simp [h c (List.mem_reverse.1 hc)],
    List.reverse_reverse]

/-! ## Lines as a reader sees them -/

/-- The number of the line in which the character behind a text is seen. -/
def seenLine (before : List Char) : Nat := before.countP isLineEnd + 1

/-- The column at which the character behind a text is seen. -/
def seenColumn (before : List Char) : Nat := (sinceLast isLineEnd before).length + 1

/-- A character behind a text is seen in a line of the whole text: the line starts with what stands
before the character since the last line end, and goes on with the character unless it ends the
line. -/
structure SeenIn (text before : List Char) (c : Char) (line : List Char) : Prop where
  exists_after : ∃ after, text = before ++ c :: after
  line_eq : (splitLines text)[seenLine before - 1]? = some line
  exists_rest : ∃ rest, line = sinceLast isLineEnd before ++ rest ∧
    (isLineEnd c = false → rest.head? = some c)

/-- The first line starts with what is held of it. -/
theorem head_splitLinesFrom (h : a ≠ [] ∨ text ≠ []) :
    ∃ rest, (splitLinesFrom a text)[0]? = some (a.reverse ++ rest) := by
  fun_induction splitLinesFrom a text with
  | case1 a ha => simp_all
  | case2 a _ => exact ⟨[], by rw [List.append_nil]; rfl⟩
  | case3 a rest _ => exact ⟨[], by rw [List.append_nil]; rfl⟩
  | case4 a c rest _ _ _ => exact ⟨[], by rw [List.append_nil]; rfl⟩
  | case5 a c rest _ _ ih =>
    obtain ⟨line, hline⟩ := ih (.inl (List.cons_ne_nil c a))
    exact ⟨c :: line, by rw [hline, List.reverse_cons, List.append_assoc, List.singleton_append]⟩

theorem splitLinesFrom_cons (hreturn : c ≠ '\r') :
    splitLinesFrom a (c :: text) =
      if isLineEnd c then a.reverse :: splitLinesFrom [] text
      else splitLinesFrom (c :: a) text :=
  splitLinesFrom.eq_3 _ _ _ fun _ hc _ => hreturn hc

/-- No line of a text has a line end in it. -/
theorem isLineEnd_of_mem_splitLinesFrom (hheld : ∀ c ∈ a, isLineEnd c = false) {line : List Char}
    (hline : line ∈ splitLinesFrom a text) (hc : c ∈ line) : isLineEnd c = false := by
  fun_induction splitLinesFrom a text with
  | case1 => cases hline
  | case2 a _ =>
    rw [List.mem_singleton.1 hline] at hc
    exact hheld c (List.mem_reverse.1 hc)
  | case3 a rest ih | case4 a x rest _ _ ih =>
    rcases List.mem_cons.1 hline with rfl | hline
    · exact hheld c (List.mem_reverse.1 hc)
    · exact ih nofun hline
  | case5 a x rest _ hend ih =>
    exact ih (List.forall_mem_cons.2 ⟨Bool.eq_false_iff.2 hend, hheld⟩) hline

theorem isLineEnd_of_mem_splitLines {line : List Char} (hline : line ∈ splitLines text)
    (hc : c ∈ line) : isLineEnd c = false :=
  isLineEnd_of_mem_splitLinesFrom (a := []) nofun hline hc

theorem infix_of_mem_splitLinesFrom {line : List Char} (h : line ∈ splitLinesFrom a text) :
    line <:+: a.reverse ++ text := by
  fun_induction splitLinesFrom a text with
  | case1 => cases h
  | case2 a ha =>
    obtain rfl := List.mem_singleton.1 h
    exact (List.prefix_append _ _).isInfix
  | case3 a rest ih =>
    rcases List.mem_cons.1 h with rfl | h
    · exact (List.prefix_append _ _).isInfix
    · exact (ih h).trans ⟨a.reverse ++ ['\r', '\n'], [], by simp⟩
  | case4 a c rest _ hend ih =>
    rcases List.mem_cons.1 h with rfl | h
    · exact (List.prefix_append _ _).isInfix
    · exact (ih h).trans ⟨a.reverse ++ [c], [], by simp⟩
  | case5 a c rest _ hend ih =>
    have := ih h
    rwa [List.reverse_cons, List.append_assoc] at this

/-- The lines of a text are parts of it. -/
theorem infix_of_mem_splitLines {line : List Char} (h : line ∈ splitLines text) : line <:+: text :=
  infix_of_mem_splitLinesFrom h

/-- Among the lines of a text without carriage returns, the one that a character is counted in
starts with what stands before it since the last line end. -/
theorem splitLinesFrom_at (hreturn : '\r' ∉ before ++ [c]) (hheld : ∀ c ∈ a, isLineEnd c = false) :
    ∃ rest, (splitLinesFrom a (before ++ c :: after))[before.countP isLineEnd]? =
        some (sinceLast isLineEnd (a.reverse ++ before) ++ rest) ∧
      (isLineEnd c = false → rest.head? = some c) := by
  induction before generalizing a with
  | nil =>
    have hc : c ≠ '\r' := by simpa [eq_comm] using hreturn
    rw [List.nil_append, List.append_nil,
      sinceLast_eq_self fun c hc => hheld c (List.mem_reverse.1 hc), splitLinesFrom_cons hc]
    cases hend : isLineEnd c
    · obtain ⟨rest, hline⟩ : ∃ rest, (splitLinesFrom (c :: a) after)[0]? =
          some ((c :: a).reverse ++ rest) := head_splitLinesFrom (.inl (by simp))
      exact ⟨c :: rest, by simpa using hline, fun _ => rfl⟩
    · exact ⟨[], by simp, nofun⟩
  | cons x before ih =>
    rw [List.cons_append, List.mem_cons, not_or] at hreturn
    rw [List.cons_append, splitLinesFrom_cons (Ne.symm hreturn.1), List.countP_cons]
    cases hend : isLineEnd x
    · have hheld' : ∀ y ∈ x :: a, isLineEnd y = false := by
        rintro y (_ | ⟨_, hy⟩)
        · exact hend
        · exact hheld y hy
      simpa using ih hreturn.2 hheld'
    · rw [sinceLast_append_cons hend]
      simpa using ih (a := []) hreturn.2 (by simp)

/-- **Every character of a text without carriage returns is seen** in one of its lines. -/
theorem exists_seenIn (hreturn : '\r' ∉ text) (hk : k < text.length) :
    ∃ c line, SeenIn text (text.take k) c line := by
  have htext : text = text.take k ++ text[k] :: text.drop (k + 1) := by
    rw [← List.drop_eq_getElem_cons hk, List.take_append_drop]
  have hbefore : '\r' ∉ text.take k ++ [text[k]] := by
    rw [List.take_append_getElem hk]
    exact fun h => hreturn (List.mem_of_mem_take h)
  obtain ⟨rest, hline, hrest⟩ := splitLinesFrom_at (a := []) hbefore (by simp)
  rw [← htext] at hline
  exact ⟨text[k], _, ⟨_, htext⟩, hline, rest, rfl, hrest⟩

/-! ## More lines -/

/-- A text goes on with another one in a line of its own: it ends with a line end, or the other one
begins with one. -/
def GoesOnBelow (text more : List Char) : Prop :=
  text.getLast?.all isLineEnd = true ∨ more.head?.all isLineEnd = true

theorem GoesOnBelow.of_suffix {more : List Char} (h : GoesOnBelow a more) (hsuffix : b <:+ a) :
    GoesOnBelow b more := by
  obtain ⟨before, rfl⟩ := hsuffix
  refine h.imp_left fun h => ?_
  rw [List.getLast?_append] at h
  cases hb : b.getLast? with
  | none => rfl
  | some c => rwa [hb] at h

/-- A line end ends what is held of a line. -/
theorem exists_splitLinesFrom_eq (hend : isLineEnd c = true) :
    ∃ rest, splitLinesFrom a (c :: text) = a.reverse :: rest := by
  by_cases hreturn : ∃ below, c = '\r' ∧ text = '\n' :: below
  · obtain ⟨below, rfl, rfl⟩ := hreturn
    exact ⟨_, rfl⟩
  · rw [splitLinesFrom.eq_3 _ _ _ fun below hc htext => hreturn ⟨below, hc, htext⟩, if_pos hend]
    exact ⟨_, rfl⟩

theorem splitLinesFrom_isPrefix {more : List Char} (hheld : ∀ c ∈ a, isLineEnd c = false)
    (h : GoesOnBelow (a.reverse ++ text) more) :
    splitLinesFrom a text <+: splitLinesFrom a (text ++ more) := by
  fun_induction splitLinesFrom a text with
  | case1 => exact List.nil_prefix
  | case2 a hne =>
    -- what is held has no line end, so it is what follows that ends the line
    rcases h with h | h
    · cases a with
      | nil => exact absurd rfl hne
      | cons x a => simp [hheld x List.mem_cons_self] at h
    · cases more with
      | nil => exact ⟨[], (if_neg hne).symm⟩
      | cons x more =>
        obtain ⟨below, heq⟩ : ∃ below, splitLinesFrom a (x :: more) = a.reverse :: below :=
          exists_splitLinesFrom_eq h
        exact ⟨below, heq.symm⟩
  | case3 a rest ih =>
    exact List.cons_prefix_cons.2 ⟨rfl, ih nofun (h.of_suffix ⟨a.reverse ++ ['\r', '\n'], by simp⟩)⟩
  | case4 a c rest hnot hend ih =>
    cases rest with
    | nil =>
      -- the end may be the first half of a pair, whose second half comes with what follows
      obtain ⟨below, heq⟩ : ∃ below, splitLinesFrom a (c :: more) = a.reverse :: below :=
        exists_splitLinesFrom_eq hend
      exact ⟨below, heq.symm⟩
    | cons d rest =>
      rw [List.cons_append, splitLinesFrom.eq_3 _ _ _ fun below hc heq => hnot rest hc (by grind),
        if_pos hend]
      exact List.cons_prefix_cons.2 ⟨rfl, ih nofun (h.of_suffix ⟨a.reverse ++ [c], by simp⟩)⟩
  | case5 a c rest hnot hend ih =>
    have hreturn : c ≠ '\r' := fun hc => hend (hc ▸ rfl)
    rw [List.cons_append, splitLinesFrom_cons hreturn, if_neg hend]
    refine ih ?_ (by simpa using h)
    exact List.forall_mem_cons.2 ⟨Bool.eq_false_iff.2 hend, hheld⟩

/-- **The lines of a text are the first ones of a text that goes on below it.** -/
theorem splitLines_isPrefix {more : List Char} (h : GoesOnBelow text more) :
    splitLines text <+: splitLines (text ++ more) := splitLinesFrom_isPrefix nofun h

/-! ## Lines as a reader of source counts them -/

/-- The line of the character behind a text, counted in line feeds. -/
def feedLine (before : List Char) : Nat := before.count '\n' + 1

/-- The bytes between the last line feed and the character behind a text. -/
def byteColumn (before : List Char) : Nat := Utf8.width (sinceLast (· == '\n') before)

theorem width_snoc : Utf8.width (a ++ [c]) = Utf8.width a + Utf8.charWidth c := by
  simp [Utf8.width]

theorem feedLine_snoc : feedLine (a ++ [c]) = feedLine a + if c = '\n' then 1 else 0 := by
  by_cases h : c = '\n' <;> simp [feedLine, h]

theorem byteColumn_snoc :
    byteColumn (a ++ [c]) = if c = '\n' then 0 else byteColumn a + Utf8.charWidth c := by
  rw [byteColumn, sinceLast_snoc]
  by_cases h : c = '\n'
  · simp [h, Utf8.width]
  · simp [h, width_snoc, byteColumn]

theorem charWidth_pos : 0 < Utf8.charWidth c := by
  unfold Utf8.charWidth
  split_ifs <;> decide

/-- Going on in a text, the place counted in line feeds and bytes goes on. -/
theorem feedLine_lt_or (h : b ≠ []) :
    feedLine a < feedLine (a ++ b) ∨
      feedLine a = feedLine (a ++ b) ∧ byteColumn a < byteColumn (a ++ b) := by
  induction b using List.reverseRecOn with
  | nil => exact absurd rfl h
  | append_singleton b c ih =>
    rw [← List.append_assoc, feedLine_snoc, byteColumn_snoc]
    have hwidth := charWidth_pos (c := c)
    rcases eq_or_ne b [] with rfl | hb
    · rw [List.append_nil]
      split_ifs <;> omega
    · rcases ih hb with hline | ⟨hline, hcol⟩
      · exact .inl (Nat.lt_of_lt_of_le hline (Nat.le_add_right _ _))
      · split_ifs <;> omega

/-- The character at an index stands at a place counted in line feeds and bytes. -/
structure StandsAt (text : List Char) (k line col : Nat) : Prop where
  lt : k < text.length
  line_eq : feedLine (text.take k) = line
  col_eq : byteColumn (text.take k) = col

/-- No two characters stand at one place. -/
theorem StandsAt.unique {j line col : Nat} (hj : StandsAt text j line col)
    (hk : StandsAt text k line col) : j = k := by
  wlog hjk : j < k generalizing j k
  · by_contra hne
    exact hne (this hk hj (by omega)).symm
  exfalso
  have hmore : text.take k = text.take j ++ (text.drop j).take (k - j) := by
    rw [← List.take_add, Nat.add_sub_cancel' (Nat.le_of_lt hjk)]
  have hne : (text.drop j).take (k - j) ≠ [] := by
    have := hj.lt
    rw [Ne, ← List.length_eq_zero_iff, List.length_take, List.length_drop]
    omega
  have hplace := feedLine_lt_or (a := text.take j) hne
  rw [← hmore, hj.line_eq, hk.line_eq, hj.col_eq, hk.col_eq] at hplace
  omega

/-! ## Where the two agree -/

theorem isLineEnd_newline : isLineEnd '\n' = true := rfl

theorem count_newline_le : before.count '\n' ≤ before.countP isLineEnd := by
  refine List.countP_mono_left fun c _ hc => ?_
  rw [beq_iff_eq.1 hc, isLineEnd_newline]

/-- **The two lines are one** if and only if every line before ends with a line feed. -/
theorem feedLine_eq_seenLine :
    feedLine before = seenLine before ↔ ∀ c ∈ before, isLineEnd c = true → c = '\n' := by
  induction before with
  | nil => simp [feedLine, seenLine]
  | cons c rest ih =>
    have hle : rest.count '\n' ≤ rest.countP isLineEnd := count_newline_le
    simp only [feedLine, seenLine, Nat.add_right_cancel_iff] at ih
    simp only [feedLine, seenLine, Nat.add_right_cancel_iff, List.count_cons, List.countP_cons,
      List.forall_mem_cons, ← ih]
    by_cases hc : c = '\n'
    · simp [hc, isLineEnd_newline]
    · cases hend : isLineEnd c
      · simp [hc]
      · simp only [beq_iff_eq, hc, if_false, if_true, forall_const, false_and, iff_false]
        omega

/-- Then the bytes and the characters are counted from one place. -/
theorem sinceLast_newline (h : ∀ c ∈ before, isLineEnd c = true → c = '\n') :
    sinceLast (· == '\n') before = sinceLast isLineEnd before := by
  induction before using List.reverseRecOn with
  | nil => rfl
  | append_singleton a c ih =>
    have hrest := ih fun x hx => h x (List.mem_append_left _ hx)
    have hc : (c == '\n') = isLineEnd c := by
      rw [Bool.eq_iff_iff, beq_iff_eq]
      exact ⟨fun hc => hc ▸ isLineEnd_newline, h c (by simp)⟩
    rw [sinceLast_snoc, sinceLast_snoc, hrest, hc]

theorem length_le_width : text.length ≤ Utf8.width text := by
  induction text using List.reverseRecOn with
  | nil => exact Nat.le_refl 0
  | append_singleton a c ih =>
    have := charWidth_pos (c := c)
    rw [width_snoc, List.length_append, List.length_singleton]
    omega

/-- A text has as many bytes as characters if and only if each is one byte. -/
theorem width_eq_length : Utf8.width text = text.length ↔ ∀ c ∈ text, c.toNat < 0x80 := by
  induction text using List.reverseRecOn with
  | nil => simp [Utf8.width]
  | append_singleton a c ih =>
    have hle : a.length ≤ Utf8.width a := length_le_width
    have hpos := charWidth_pos (c := c)
    have hone : Utf8.charWidth c = 1 ↔ c.toNat < 0x80 := by
      unfold Utf8.charWidth
      split_ifs <;> simp_all
    rw [width_snoc, List.length_append, List.length_singleton, List.forall_mem_append, ← ih,
      List.forall_mem_singleton, ← hone]
    omega

end CodeAudit.Text
