import CodeAudit.Proofs.Text.Places
import CodeAudit.Syntax.Source

/-!
# Where tokens stand

The reader of tokens walks over a text with a cursor that counts line feeds and bytes. It may read
something else than the text itself: the source with a line feed of its own at the end, or an
expression of a formatted text between parentheses in the place of the braces. What it reads always
lies over the text character by character (`Over`), so the cursor's place stays the place of a
character of the text (`Cursor.On`), and every token with characters starts at one
(`Token.Starts`).
-/

namespace CodeAudit.Syntax

open Text

variable {text rest a b : List Char} {c : Cursor} {k n : Nat} {x y z : Char}

/-! ## Reading over a text -/

/-- Two characters that move a cursor alike. -/
structure Alike (x y : Char) : Prop where
  width : Utf8.charWidth x = Utf8.charWidth y
  newline : x = '\n' ↔ y = '\n'

theorem Alike.refl : Alike x x := ⟨rfl, .rfl⟩

theorem Alike.trans (h : Alike x y) (h' : Alike y z) : Alike x z :=
  ⟨h.width.trans h'.width, h.newline.trans h'.newline⟩

/-- What is read lies over a text: its characters are alike from the start on, and at most a line
feed at its end is its own. -/
inductive Over : List Char → List Char → Prop
  | nil {text : List Char} : Over text []
  | ending {text : List Char} : Over text ['\n']
  | cons {x y : Char} {text rest : List Char} :
      Alike x y → Over text rest → Over (x :: text) (y :: rest)

theorem over_endWithNewline : Over text (endWithNewline text) := by
  have happend : ∀ text : List Char, Over text (text ++ ['\n']) := fun text => by
    induction text with
    | nil => exact .ending
    | cons c rest ih => exact .cons .refl ih
  have hself : ∀ text : List Char, Over text text := fun text => by
    induction text with
    | nil => exact .nil
    | cons c rest ih => exact .cons .refl ih
  unfold endWithNewline
  split
  · exact hself text
  · exact happend text

theorem Over.of_prefix (h : Over text rest) (ha : a <+: rest) : Over text a := by
  induction h generalizing a with
  | nil => exact List.prefix_nil.1 ha ▸ .nil
  | ending =>
    rcases List.prefix_cons_iff.1 ha with rfl | ⟨a, rfl, htail⟩
    · exact .nil
    · exact List.prefix_nil.1 htail ▸ .ending
  | cons halike _ ih =>
    rcases List.prefix_cons_iff.1 ha with rfl | ⟨a, rfl, htail⟩
    · exact .nil
    · exact .cons halike (ih htail)

/-- A character that is read lies over one of the text, unless it is a line feed. -/
theorem Over.uncons (h : Over text (y :: rest)) (hy : y ≠ '\n') :
    ∃ x tail, text = x :: tail ∧ Alike x y ∧ Over tail rest := by
  generalize hread : y :: rest = read at h
  cases h with
  | nil => cases hread
  | ending => exact absurd (List.cons.inj hread).1 hy
  | cons halike hover =>
    obtain ⟨rfl, rfl⟩ := List.cons.inj hread
    exact ⟨_, _, rfl, halike, hover⟩

/-- What is read may break off at a character, with one like it and a line feed instead. -/
theorem Over.breakOff (h : Over text (a ++ x :: b)) (hx : x ≠ '\n') (hy : Alike x y) :
    Over text (a ++ [y, '\n']) := by
  induction a generalizing text with
  | nil =>
    obtain ⟨_, _, rfl, halike, _⟩ := h.uncons hx
    exact .cons (halike.trans hy) .ending
  | cons z a ih =>
    generalize hrest : z :: a ++ x :: b = rest at h
    cases h with
    | nil => cases hrest
    | ending =>
      rw [List.cons_append, List.cons.injEq] at hrest
      exact absurd hrest.2 (List.append_ne_nil_of_right_ne_nil _ (List.cons_ne_nil x b))
    | cons halike hover =>
      rw [List.cons_append, List.cons.injEq] at hrest
      obtain ⟨rfl, rfl⟩ := hrest
      exact .cons halike (ih hover)

/-! ## Cursors -/

namespace Cursor

@[simp] theorem rest_load : c.load.rest = c.rest := by
  unfold load
  split <;> rfl

theorem load_eq_self (h : c.fresh = false) : c.load = c := by simp [load, h]

theorem load_of_rest_nil (h : c.rest = []) : c.load = c := by simp [load, h]

@[simp] theorem load_load : c.load.load = c.load := by
  by_cases h : c.fresh && !c.rest.isEmpty
  · simp [load, h]
  · simp [load, h]

theorem step_of_rest_nil (h : c.rest = []) : c.step = c := by
  simp [step, load_of_rest_nil h, h]

theorem step_eq (h : c.rest = x :: rest) :
    c.step = ⟨rest, c.load.line, c.load.col + Utf8.charWidth x, c.load.chars + 1, x == '\n',
      c.load.shift⟩ := by
  simp [step, h]

theorem rest_step : c.step.rest = c.rest.drop 1 := by
  cases h : c.rest with
  | nil => rw [step_of_rest_nil h, h, List.drop_nil]
  | cons x rest => rw [step_eq h, List.drop_one, List.tail_cons]

/-- Within a line a cursor has nothing to enter. -/
theorem load_skip (h : c.load = c) (hline : ∀ x ∈ c.rest.take n, x ≠ '\n') :
    (c.skip n).load = c.skip n := by
  induction n generalizing c with
  | zero => exact h
  | succ n ih =>
    rw [skip]
    cases hrest : c.rest with
    | nil =>
      rw [step_of_rest_nil hrest]
      exact ih h (by simp [hrest])
    | cons x rest =>
      rw [hrest, List.take_succ_cons, List.forall_mem_cons] at hline
      refine ih (load_eq_self ?_) ?_
      · simp [step_eq hrest, hline.1]
      · rw [rest_step, hrest]
        exact hline.2

/-- A cursor that stands at an index of a text. -/
structure At (text : List Char) (k : Nat) (c : Cursor) : Prop where
  reads : Over (text.drop k) c.rest
  line : c.load.line = feedLine (text.take k)
  col : c.load.col = byteColumn (text.take k)

/-- A cursor that stands in a text, or at the end of what it reads. -/
def On (text : List Char) (c : Cursor) : Prop := c.rest = [] ∨ ∃ k, c.At text k

/-- The index at which a cursor stands is one of the text, unless only a line feed is left. -/
theorem At.lt (h : c.At text k) (hrest : c.rest = x :: rest) (hx : x ≠ '\n') : k < text.length := by
  obtain ⟨_, _, htail, _⟩ := (hrest ▸ h.reads).uncons hx
  refine Nat.lt_of_not_le fun hle => ?_
  rw [List.drop_eq_nil_of_le hle] at htail
  cases htail

theorem On.load (h : c.On text) : c.load.On text := by
  rcases h with h | ⟨k, h⟩
  · exact .inl (by rw [rest_load, h])
  · exact .inr ⟨k, by rw [rest_load]; exact h.reads, by rw [load_load, h.line],
      by rw [load_load, h.col]⟩

/-- Passing a character that lies over one of the text leads to the next. -/
theorem At.step (h : c.At text k) (hrest : c.rest = y :: rest) (htail : text.drop k = x :: b)
    (halike : Alike x y) (hover : Over b rest) (hne : rest ≠ []) : c.step.At text (k + 1) := by
  have hnext : text.drop (k + 1) = b := by rw [← List.tail_drop, htail, List.tail_cons]
  have hbefore : text.take (k + 1) = text.take k ++ [x] := by
    have hk : text[k]? = some x := by rw [← List.head?_drop, htail, List.head?_cons]
    rw [List.take_add_one, hk, Option.toList_some]
  have hstep := step_eq hrest
  constructor
  · rw [hnext, hstep]
    exact hover
  · rw [hbefore, feedLine_snoc, ← h.line, hstep]
    by_cases hy : y = '\n'
    · simp [Cursor.load, hy, halike.newline.2 hy, hne]
    · simp [Cursor.load, hy, mt halike.newline.1 hy]
  · rw [hbefore, byteColumn_snoc, ← h.col, hstep]
    by_cases hy : y = '\n'
    · simp [Cursor.load, hy, halike.newline.2 hy, hne]
    · simp [Cursor.load, hy, mt halike.newline.1 hy, halike.width]

theorem On.step (h : c.On text) : c.step.On text := by
  -- The last character read needs no place behind it: a cursor at the end is on every text.
  cases hrest : c.rest with
  | nil => exact .inl (by rw [rest_step, hrest, List.drop_nil])
  | cons y rest =>
    rcases h with h | ⟨k, h⟩
    · cases h.symm.trans hrest
    · have hover := h.reads
      generalize htail : text.drop k = tail at hover
      rw [hrest] at hover
      cases hover with
      | ending => exact .inl (by rw [rest_step, hrest]; rfl)
      | cons halike hover =>
        rcases eq_or_ne rest [] with rfl | hne
        · exact .inl (by rw [rest_step, hrest]; rfl)
        · exact .inr ⟨k + 1, h.step hrest htail halike hover hne⟩

theorem On.skip (h : c.On text) : (c.skip n).On text := by
  induction n generalizing c with
  | zero => exact h
  | succ n ih => exact ih h.step

/-- A cursor at the first character of a token. -/
def Opens (text : List Char) (c : Cursor) : Prop :=
  c.load = c ∧ ∃ k x rest, c.At text k ∧ c.rest = x :: rest ∧ x ≠ '\n'

theorem Opens.on (h : c.Opens text) : c.On text := by
  obtain ⟨_, k, _, _, hat, _⟩ := h
  exact .inr ⟨k, hat⟩

end Cursor

/-! ## Tokens -/

/-- A token starts at a character of a text, and its own characters lie over the text there. -/
def Token.Starts (text : List Char) (t : Token) : Prop :=
  ∃ k col chars, StandsAt text k t.line col ∧ t.start = some (col, chars) ∧
    Over (text.drop k) t.lexeme.toList

/-- A token that carries text starts at a character of a text. -/
def Token.Placed (text : List Char) (t : Token) : Prop := Parse.isSolid t = true → t.Starts text

namespace Lexer

variable {s s' : Lexer} {t : Token} {stop : Cursor} {kind : TokenKind} {lexeme : List Char}

theorem starts_token (h : c.Opens text) (hlexeme : lexeme <+: c.rest) :
    (s.token kind lexeme c stop).Starts text := by
  obtain ⟨hload, k, x, rest, hat, hrest, hx⟩ := h
  refine ⟨k, c.col, c.chars, ⟨hat.lt hrest hx, ?_, ?_⟩, rfl, ?_⟩
  · rw [← hat.line, hload]
    rfl
  · rw [← hat.col, hload]
  · exact String.toList_ofList ▸ hat.reads.of_prefix hlexeme

/-- A token is read from where it opens, and the reader goes on behind it. -/
def Takes (text : List Char) (r : Except Stop (Token × Lexer)) : Prop :=
  ∀ t s, r = .ok (t, s) → t.Starts text ∧ s.cursor.On text

theorem takes_error {e : Stop} : Takes text (.error e) := fun _ _ h => nomatch h

theorem takes_ite {p : Prop} [Decidable p] {r r' : Except Stop (Token × Lexer)}
    (h : Takes text r) (h' : Takes text r') : Takes text (if p then r else r') := by
  split
  · exact h
  · exact h'

theorem takes_token (h : c.Opens text) (hlexeme : lexeme <+: c.rest) (hstop : s'.cursor.On text) :
    Takes text (.ok (s.token kind lexeme c stop, s')) := by
  rintro t s ⟨⟩
  exact ⟨starts_token h hlexeme, hstop⟩

theorem takes_readText (h : c.Opens text) {mark : Nat} : Takes text (s.readText c mark) := by
  unfold readText
  split
  · exact takes_error
  · exact takes_ite (takes_token h (List.take_prefix _ _) h.on.skip) takes_error

theorem takes_readName (h : c.Opens text) : Takes text (s.readName c) := by
  unfold readName
  dsimp only
  split
  · exact takes_error
  · exact takes_token h (List.takeWhile_prefix _) h.on.skip

theorem takes_readNumber (h : c.Opens text) {found : Numeral.Extent} :
    Takes text (s.readNumber c found) := by
  unfold readNumber
  split
  · exact takes_token h (List.take_prefix _ _) h.on.skip
  · exact takes_ite takes_error takes_error

theorem takes_readSymbol (h : c.Opens text) (hrest : c.rest = x :: rest) :
    Takes text (s.readSymbol c x) := by
  have htaken : ∀ s : Lexer,
      Takes text (.ok (s.token .op [x] c c.step, { s with cursor := c.step })) := fun s =>
    takes_token h (by rw [hrest]; exact List.prefix_append [x] rest) h.on.step
  unfold readSymbol
  simp only [bind, Except.bind]
  refine takes_ite (takes_ite takes_error (htaken _))
    (takes_ite ?_ (takes_ite (htaken _) takes_error))
  split
  · exact takes_error
  · exact takes_ite (htaken _) takes_error

theorem takes_readOperator (h : c.Opens text) : Takes text (s.readOperator c) := by
  have hlexeme : ∀ n, (String.ofList (c.rest.take n)).toList <+: c.rest := fun n => by
    rw [String.toList_ofList]
    exact List.take_prefix _ _
  refine takes_ite (takes_token h (hlexeme 3) h.on.skip)
    (takes_ite (takes_token h (hlexeme 2) h.on.skip) ?_)
  split
  next x rest hrest => exact takes_readSymbol h hrest
  next => exact takes_error

end Lexer

/-! ## The reader -/

theorem skipBlanks_on (h : c.On text) : (skipBlanks c).On text := by
  unfold skipBlanks
  dsimp only
  split
  · exact h.load.skip.skip
  · exact h.load.skip

theorem load_skipBlanks : (skipBlanks c).load = skipBlanks c := by
  have hblanks : ∀ c : Cursor, c.load = c →
      (c.skip (c.rest.takeWhile fun x => x == ' ' || x == '\t' || x == '\x0c').length).load =
        c.skip (c.rest.takeWhile fun x => x == ' ' || x == '\t' || x == '\x0c').length := by
    intro c h
    refine Cursor.load_skip h fun x hx => ?_
    rw [← List.prefix_iff_eq_take.1 (List.takeWhile_prefix _)] at hx
    rintro rfl
    simpa using List.mem_takeWhile_imp hx
  unfold skipBlanks
  dsimp only
  split
  · refine Cursor.load_skip (hblanks _ Cursor.load_load) fun x hx => ?_
    rw [← List.prefix_iff_eq_take.1 (List.takeWhile_prefix _)] at hx
    simpa using List.mem_takeWhile_imp hx
  · exact hblanks _ Cursor.load_load

theorem continueLine_on {s : Lexer} {c' : Cursor} (h : c.On text)
    (hread : continueLine s c = .ok c') : c'.On text := by
  unfold continueLine at hread
  split at hread
  · dsimp only at hread
    split at hread
    · cases hread
    · cases hread
      exact h.step.load
  · cases hread

theorem measureIndent_on {s : Lexer} {fuel : Nat} {i i' : Indentation} (h : i.cursor.On text)
    (hread : measureIndent s fuel i = .ok i') : i'.cursor.On text := by
  induction fuel generalizing i with
  | zero =>
    cases hread
    exact h
  | succ fuel ih =>
    rw [measureIndent] at hread
    dsimp only at hread
    split at hread
    · exact ih h.load.step hread
    · exact ih h.load.step hread
    · exact ih h.load.step hread
    · simp only [bind, Except.bind] at hread
      split at hread
      · cases hread
      next c' hc' => exact ih (continueLine_on h.load.step hc') hread
    · cases hread
      exact h.load

namespace Lexer

variable {s s' : Lexer} {blank : Bool}

theorem applyIndent_cursor {width narrow : Nat} (h : s.applyIndent c width narrow = .ok s') :
    s'.cursor = s.cursor := by
  unfold applyIndent at h
  dsimp only at h
  split_ifs at h <;> cases h <;> rfl

theorem startLine_on (h : s.cursor.On text) (hread : s.startLine = .ok (s', blank)) :
    s'.cursor.On text := by
  simp only [startLine, bind, Except.bind, pure, Except.pure] at hread
  split at hread
  · cases hread
  next i hi =>
    have hon := measureIndent_on h hi
    split at hread
    · cases hread
      exact hon
    · cases hread
      exact hon
    · split at hread
      · split at hread
        · cases hread
        next s₁ hs₁ =>
          cases hread
          rw [applyIndent_cursor hs₁]
          exact hon
      · cases hread
        exact hon

/-- What the reader comes to next is placed, and it goes on in the text. -/
def Comes (text : List Char) (r : Except Stop LexStep) : Prop :=
  ∀ next, r = .ok next →
    match next with
    | .token t s => t.Placed text ∧ s.cursor.On text
    | .again s => s.cursor.On text
    | .finished t => t.Placed text

theorem Takes.comes {r : Except Stop (Token × Lexer)} (h : Takes text r) :
    Comes text (r.map fun (t, s) => LexStep.token t s) := by
  intro next hnext
  cases r with
  | error e => cases hnext
  | ok p =>
    cases hnext
    obtain ⟨hstarts, hon⟩ := h p.1 p.2 rfl
    exact ⟨fun _ => hstarts, hon⟩

theorem comes_readFrom (h : s.cursor.On text) : Comes text (s.readFrom blank) := by
  have hon := skipBlanks_on h
  unfold readFrom
  dsimp only
  -- Line ends and the end of the source give tokens without text; only the others open somewhere.
  split
  · split
    · rintro _ ⟨⟩
    · rintro _ ⟨⟩
      exact fun hsolid => nomatch hsolid
  next x rest hrest =>
    by_cases hx : x = '\n'
    · rw [if_pos hx]
      split_ifs
      · rintro _ ⟨⟩
        exact hon.step
      · rintro _ ⟨⟩
        exact ⟨fun hsolid => (nomatch hsolid), hon.step⟩
    · have hopens : (skipBlanks s.cursor).Opens text := by
        refine ⟨load_skipBlanks, ?_⟩
        rcases hon with hnil | ⟨k, hat⟩
        · cases hnil.symm.trans hrest
        · exact ⟨k, x, rest, hat, hrest, hx⟩
      rw [if_neg hx]
      split_ifs
      · split
        · exact (takes_readText hopens).comes
        · exact (takes_readName hopens).comes
      · exact (takes_readNumber hopens).comes
      · exact (takes_readNumber hopens).comes
      · exact (takes_readText hopens).comes
      · intro next hnext
        cases hc : continueLine s (skipBlanks s.cursor).step with
        | error e =>
          rw [hc] at hnext
          cases hnext
        | ok c' =>
          rw [hc] at hnext
          cases hnext
          exact continueLine_on hon.step hc
      · exact (takes_readOperator hopens).comes

theorem comes_read (h : s.cursor.On text) : Comes text s.read := by
  have hfrom : ∀ (s : Lexer) (blank : Bool), s.cursor.On text →
      Comes text (if s.indentDue then
          pure (.token (s.emptyToken .indent) { s with indentDue := false })
        else if 0 < s.dedents then
          pure (.token (s.emptyToken .dedent) { s with dedents := s.dedents - 1 })
        else s.readFrom blank) := by
    intro s blank h
    split_ifs
    · rintro _ ⟨⟩
      exact ⟨fun hsolid => (nomatch hsolid), h⟩
    · rintro _ ⟨⟩
      exact ⟨fun hsolid => (nomatch hsolid), h⟩
    · exact comes_readFrom h
  unfold read
  simp only [bind, Except.bind]
  split
  · intro next hnext
    split at hnext
    · cases hnext
    next p hp => exact hfrom p.1 p.2 (startLine_on h hp) next hnext
  · exact hfrom s false h

theorem placed_readAll {fuel : Nat} {tokens : Array Token} (h : s.cursor.On text)
    (htokens : ∀ t ∈ tokens, t.Placed text) :
    ∀ t ∈ (readAll fuel s tokens).tokens, t.Placed text := by
  have hpush : ∀ {tokens : Array Token} {t : Token}, (∀ t ∈ tokens, t.Placed text) →
      t.Placed text → ∀ u ∈ tokens.push t, u.Placed text := by
    intro tokens t htokens ht u hu
    rcases Array.mem_push.1 hu with hu | rfl
    · exact htokens u hu
    · exact ht
  induction fuel generalizing s tokens with
  | zero => exact htokens
  | succ fuel ih =>
    have hcomes := comes_read h
    rw [readAll]
    split
    · exact htokens
    next t hread => exact hpush htokens (hcomes _ hread)
    next s' hread => exact ih (hcomes _ hread) htokens
    next t s' hread => exact ih (hcomes _ hread).2 (hpush htokens (hcomes _ hread).1)

end Lexer

/-- **The tokens of a source that is read in a text are placed in the text.** -/
theorem placed_lexFrom (h : c.On text) : ∀ t ∈ (lexFrom c).tokens, t.Placed text :=
  Lexer.placed_readAll h (by simp)

theorem placed_lex : ∀ t ∈ (lex text).tokens, t.Placed text := by
  refine placed_lexFrom ?_
  rcases eq_or_ne (endWithNewline text) [] with hnil | hne
  · exact .inl hnil
  · refine .inr ⟨0, over_endWithNewline, ?_, ?_⟩
    · simp [Cursor.start, Cursor.load, hne, feedLine]
    · simp [Cursor.start, Cursor.load, hne, byteColumn, sinceLast, Utf8.width]

end CodeAudit.Syntax
