import CodeAudit.Proofs.Syntax.Tokens

/-!
# Where the expressions of formatted texts stand

A formatted text token lies over a text from its first character on, so the scan for its
expressions walks over the text too. An expression is read between parentheses in the place of the
opening brace and of the mark that ends it. Both move a cursor as the parentheses do, so that what
is read still lies over the text (`enclosed_on`), in formats inside formats as well.
-/

namespace CodeAudit.Syntax

open Text

variable {text rest : List Char} {c c' : Cursor} {k n m : Nat} {x : Char}

/-- An expression of a formatted text, and those in its format, are read in a text. -/
inductive Field.On (text : List Char) : Field → Prop
  | mk {expr : Cursor} {spec : Option (List Field)} :
      expr.On text → (∀ fields, spec = some fields → ∀ f ∈ fields, Field.On text f) →
      Field.On text (.mk expr spec)

namespace Interpolation

/-- A scan that finds expressions of a text and ends in the text. -/
structure Scan.On (text : List Char) (s : Scan) : Prop where
  fields : ∀ f ∈ s.fields, f.On text
  stop : ∀ c, s.stop = .ok c → c.On text

theorem Scan.On.fault {message : String} : (Scan.fault message).On text :=
  ⟨by simp [Scan.fault], fun _ h => nomatch h⟩

theorem Scan.On.ok (h : c.On text) : Scan.On text ⟨[], .ok c⟩ := by
  refine ⟨by simp, ?_⟩
  rintro _ ⟨⟩
  exact h

theorem Scan.On.broken {f : Field} {message : String} (h : f.On text) :
    Scan.On text ⟨[f], .error message⟩ :=
  ⟨by simpa using h, fun _ h => nomatch h⟩

theorem Scan.On.after {f : Field} {s : Scan} (hs : s.On text) (hf : f.On text) :
    (s.after f).On text :=
  ⟨List.forall_mem_cons.2 ⟨hf, hs.fields⟩, hs.stop⟩

theorem skipSpace_on (h : c.On text) : (skipSpace c).On text := h.skip

theorem afterExpr_on (h : c.On text) (hread : afterExpr c = .ok c') : c'.On text := by
  unfold afterExpr at hread
  extract_lets d at hread
  have hd : d.On text := by
    unfold d
    split
    · exact skipSpace_on h.step
    · exact h
  clear_value d
  split at hread
  · split at hread
    · cases hread
      exact hd.step.step
    · cases hread
  · cases hread
  · cases hread
    exact hd

/-! ## The end of an expression -/

/-- Some way on there is a mark that moves a cursor as a closing parenthesis does. -/
def Marked (n : Nat) (rest : List Char) (m : Nat) : Prop :=
  ∃ a x b, rest = a ++ x :: b ∧ n + a.length = m ∧ Alike x ')'

theorem Marked.cons (h : Marked (n + 1) rest m) : Marked n (x :: rest) m := by
  obtain ⟨a, y, b, rfl, rfl, hy⟩ := h
  exact ⟨x :: a, y, b, rfl, by rw [List.length_cons]; omega, hy⟩

theorem marked_of_exprLength {inside : Inside} {brackets : List Char} {skip : Nat}
    (h : exprLength inside brackets skip n rest = .ok m) : Marked n rest m := by
  fun_induction exprLength inside brackets skip n rest
  case case16 x rest _ _ _ _ _ hends _ hnot =>
    cases h
    refine ⟨[], x, rest, rfl, rfl, ?_⟩
    rcases hends.2 with rfl | rfl | rfl | rfl | hx
    · exact ⟨rfl, by decide⟩
    · exact ⟨rfl, by decide⟩
    · exact ⟨rfl, by decide⟩
    · exact ⟨rfl, by decide⟩
    · exact absurd hx hnot
  -- Every other step either fails or passes a character.
  all_goals first
    | cases h
    | rename_i ih
      exact (ih h).cons

/-- **An expression between parentheses** in the place of the brace and of its end still lies over
the text. -/
theorem enclosed_on (h : c.On text) (hrest : c.rest = openBrace :: rest) (hend : Marked 0 rest n) :
    (enclosed c n).On text := by
  obtain ⟨a, y, b, rfl, hlength, hy⟩ := hend
  rw [Nat.zero_add] at hlength
  rcases h with hnil | ⟨k, hat⟩
  · cases hnil.symm.trans hrest
  have hfresh : c.load.fresh = false := by
    cases hfresh : c.fresh <;> simp [Cursor.load, hfresh, hrest]
  have hload : (enclosed c n).load = enclosed c n := Cursor.load_eq_self hfresh
  refine .inr ⟨k, ?_, ?_, ?_⟩
  · obtain ⟨x, tail, htail, hx, hover⟩ := (hrest ▸ hat.reads).uncons (by decide)
    have hread : (enclosed c n).rest = '(' :: (a ++ [')', '\n']) := by
      simp [enclosed, hrest, ← hlength]
    have hbrace : Alike openBrace '(' := ⟨rfl, by decide⟩
    rw [hread, htail]
    exact .cons (hx.trans hbrace) (hover.breakOff (by simpa using mt hy.newline.1 (by decide)) hy)
  · rw [hload, ← hat.line]
    rfl
  · rw [hload, ← hat.col]
    rfl

/-! ## The scan -/

/-- An expression with its format, and what the scan `g` finds behind its closing brace. -/
theorem Scan.On.field {expr : Cursor} {spec : Option Scan} {g : Cursor → Scan}
    (hexpr : expr.On text) (hc : c.On text) (hspec : ∀ s ∈ spec, s.On text)
    (hnext : ∀ c, c.On text → (g c).On text) :
    Scan.On text (match (spec.map (·.stop)).getD (.ok c) with
      | .error message => ⟨[.mk expr (spec.map (·.fields))], .error message⟩
      | .ok after =>
        if after.rest.head? = some closeBrace then
          (g after.step).after (.mk expr (spec.map (·.fields)))
        else ⟨[.mk expr (spec.map (·.fields))], .error "f-string: expecting '\x7d'"⟩) := by
  have hfield : Field.On text (.mk expr (spec.map (·.fields))) := by
    refine .mk hexpr fun fields hfields f hf => ?_
    obtain ⟨s, hs, rfl⟩ := Option.map_eq_some_iff.1 hfields
    exact (hspec s hs).fields f hf
  split
  · exact .broken hfield
  next after hstop =>
    split
    · refine .after (hnext _ (Cursor.On.step ?_)) hfield
      cases spec with
      | none =>
        cases hstop
        exact hc
      | some s => exact (hspec s rfl).stop after hstop
    · exact .broken hfield

theorem scan_on {raw : Bool} {depth fuel : Nat} {piece : List Char} (h : c.On text) :
    (scan raw depth fuel piece c).On text := by
  induction fuel generalizing depth piece c with
  | zero => exact .ok h
  | succ fuel ih =>
    unfold scan
    extract_lets pass sound
    have hpass : ∀ n, (pass n).On text := fun n => ih h.skip
    have hsound : ∀ {piece : List Char} {next : Scan}, next.On text →
        (sound piece next).On text := by
      intro piece next hnext
      unfold sound
      split
      · exact .fault
      · exact hnext
    split
    · exact hsound (.ok h)
    next x rest hrest =>
      split_ifs with _ _ _ hbrace _ hclose
      · exact hpass _
      · exact hpass _
      · exact hpass _
      · exact hpass _
      · exact hsound (ih h.skip)
      · exact hsound (.ok h)
      · exact .fault
      · exact hsound .fault
      · refine hsound ?_
        split
        · exact .fault
        next n hlength =>
          split_ifs
          · exact .fault
          · have hopen : x = openBrace := by
              by_contra hne
              exact hbrace ⟨hne, hclose⟩
            have hexpr := enclosed_on h (hopen ▸ hrest) (marked_of_exprLength hlength)
            split
            · exact .broken (.mk hexpr (by simp))
            next after hafter =>
              have hon := afterExpr_on h.skip hafter
              refine .field (g := scan raw depth fuel []) hexpr hon ?_ fun _ => ih
              intro s hs
              split at hs
              · cases hs
                exact ih hon.step
              · cases hs

end Interpolation

/-- **The expressions of a formatted text token** that starts in a text are read in the text. -/
theorem Token.Starts.fields {t : Token} (h : t.Starts text) (mark : TextMark) :
    ∀ f ∈ (t.fields mark).1, f.On text := by
  obtain ⟨k, col, chars, hstands, hstart, hover⟩ := h
  have hon : ∀ n, Cursor.On text ⟨t.lexeme.toList.take n, t.line, col, chars, false, t.shift⟩ :=
    fun n => .inr ⟨k, hover.of_prefix (List.take_prefix _ _), hstands.line_eq.symm,
      hstands.col_eq.symm⟩
  simp only [Token.fields, hstart, Option.getD_some]
  split <;> exact (Interpolation.scan_on (hon _).skip).fields

end CodeAudit.Syntax
