import CodeAudit.Proofs.Checks.Bindings
import CodeAudit.Proofs.Checks.Blocks
import CodeAudit.Proofs.Checks.Nodes
import CodeAudit.Proofs.Pattern.Names
import CodeAudit.Proofs.Text.Casing

/-!
# Functions taken for components

A function whose name begins with a small letter is taken for a component if its line speaks of
React or JSX, or if a tag follows soon, and its name is then reported. A tag is found wherever a
letter stands right behind `<` (`occurs_tag_iff`), which a comparison does as well. In a file that
speaks neither of React nor of JSX, a function is reported exactly if one of the eight lines from
its own on has such a place (`small_function_reported_iff`).
-/

namespace CodeAudit

namespace Text

variable {word : List Char}

/-- A piece that does not have a character stands on one side of it. -/
theorem infix_append_cons_iff {left right : List Char} {x : Char} (hx : x ∉ word) :
    word <:+: left ++ x :: right ↔ word <:+: left ∨ word <:+: right := by
  have hstart : ∀ left : List Char, word <+: left ++ x :: right → word <+: left := by
    intro left h
    rcases List.prefix_or_prefix_of_prefix h (List.prefix_append left _) with hleft | ⟨more, rfl⟩
    · exact hleft
    · rw [List.prefix_append_right_inj, List.prefix_cons_iff] at h
      rcases h with rfl | ⟨rest, rfl, -⟩
      · rw [List.append_nil]
      · exact absurd (List.mem_append_right _ List.mem_cons_self) hx
  constructor
  · intro h
    induction left with
    | nil =>
      rcases List.infix_cons_iff.1 h with h | h
      · exact .inl (hstart [] h).isInfix
      · exact .inr h
    | cons c left ih =>
      rcases List.infix_cons_iff.1 h with h | h
      · exact .inl (hstart (c :: left) h).isInfix
      · exact (ih h).imp_left List.infix_cons
  · rintro (h | h)
    · exact h.trans (List.prefix_append _ _).isInfix
    · exact h.trans ⟨left ++ [x], [], by simp⟩

end Text

namespace Checks.JavaScript

open Pattern Text

variable {line near : List Char} {lines following : List (List Char)} {m : Found} {f : SourceFile}
  {i : Issue} {k n : Nat}

/-! ## Tags -/

/-- **A letter stands right behind `<`.** -/
def OpensTag (text : List Char) : Prop := ∃ c, c.isAlpha = true ∧ ['<', c] <:+: text

theorem occurs_tag_iff {text : List Char} : tag.occurs text = true ↔ OpensTag text := by
  rw [occurs_iff]
  constructor
  · rintro ⟨left, _, right, _, rfl, _, name, _, _, rfl, -,
      ⟨_, _, _, _, rfl, -, hmark, ⟨c, hc, rfl⟩, -⟩, -⟩
    obtain ⟨rfl, -⟩ := fits_char.1 hmark
    exact ⟨c, hc, left, name ++ right, by simp⟩
  · rintro ⟨c, hc, left, right, rfl⟩
    refine ⟨left, ['<', c], right, [], rfl, ['<', c], [], [], [], rfl, rfl,
      ⟨['<'], [c], [], [], rfl, rfl, fits_char.2 ⟨rfl, rfl⟩, ⟨c, hc, rfl⟩, rfl⟩, ?_⟩
    exact fits_many_one.2 ⟨Nat.zero_le _, nofun, rfl⟩

theorem opensTag_append_newline {left right : List Char} :
    OpensTag (left ++ '\n' :: right) ↔ OpensTag left ∨ OpensTag right := by
  have hmark : ∀ c : Char, c.isAlpha = true → '\n' ∉ ['<', c] := by
    rintro c hc hmem
    obtain rfl := List.mem_singleton.1 ((List.mem_cons.1 hmem).resolve_left (by decide))
    exact absurd hc (by decide)
  constructor
  · rintro ⟨c, hc, h⟩
    exact ((infix_append_cons_iff (hmark c hc)).1 h).imp (⟨c, hc, ·⟩) (⟨c, hc, ·⟩)
  · rintro (⟨c, hc, h⟩ | ⟨c, hc, h⟩)
    · exact ⟨c, hc, (infix_append_cons_iff (hmark c hc)).2 (.inl h)⟩
    · exact ⟨c, hc, (infix_append_cons_iff (hmark c hc)).2 (.inr h)⟩

/-- A tag in lines that are written below each other is in one of them. -/
theorem opensTag_intercalate :
    OpensTag (['\n'].intercalate lines) ↔ ∃ near ∈ lines, OpensTag near := by
  induction lines with
  | nil =>
    constructor
    · rintro ⟨c, -, h⟩
      exact absurd (List.infix_nil.1 h) (List.cons_ne_nil _ _)
    · rintro ⟨_, h, -⟩
      cases h
  | cons line rest ih =>
    cases rest with
    | nil => simp
    | cons next rest =>
      rw [List.intercalate_cons_cons, List.append_assoc, List.singleton_append,
        opensTag_append_newline, ih, List.exists_mem_cons_iff _ line]

/-! ## Declarations -/

/-- The first character of a line that is not blank. -/
def initial (line : List Char) : Option Char := (line.dropWhile isBlank).head?

/-- A line that is blank up to one of some words begins with its first character. -/
theorem initial_mem_of_fits {key a : Pattern} {words : List String}
    (hkey : ∀ {left piece right kept}, key.Fits left piece right kept →
      ∃ word ∈ words, piece = word.toList)
    (hwords : ∀ word ∈ words, word.toList.head?.any (!isBlank ·) = true)
    (h : (textStart ++ (blanks ++ (key ++ a))).FitsIn line) :
    initial line ∈ words.map (·.toList.head?) := by
  obtain ⟨left, rest, rfl, hfits⟩ := fitsIn_iff.1 h
  obtain ⟨_, rest, _, rfl, ⟨rfl, -, rfl⟩, hfits⟩ := fitsBehind_append.1 hfits
  obtain ⟨gap, rest, rfl, hgap, hfits⟩ := fitsBehind_blanks_append.1 hfits
  obtain ⟨piece, rest, _, rfl, hpiece, -⟩ := fitsBehind_append.1 hfits
  obtain ⟨word, hmem, rfl⟩ := hkey hpiece
  refine List.mem_map.2 ⟨word, hmem, ?_⟩
  obtain ⟨c, hc, hblank⟩ := (Option.any_eq_true _ _).1 (hwords word hmem)
  obtain ⟨more, hword⟩ := List.head?_eq_some_iff.1 hc
  rw [List.nil_append, List.nil_append, initial, List.dropWhile_append_of_pos hgap, hword,
    List.cons_append, List.dropWhile_cons_of_neg (by simpa using hblank), List.head?_cons,
    List.head?_cons]

theorem initial_functionHead (h : functionHead.FitsIn line) : initial line = some 'f' := by
  simp only [functionHead, fitsIn_assoc] at h
  have hmem : initial line ∈ ["function"].map (·.toList.head?) :=
    initial_mem_of_fits (fun hkey => ⟨_, List.mem_singleton_self _, (fits_text.1 hkey).1⟩)
      (by decide) h
  exact List.mem_singleton.1 hmem

theorem initial_componentClass (h : componentClass.FitsIn line) : initial line = some 'c' := by
  simp only [componentClass, fitsIn_assoc] at h
  have hmem : initial line ∈ ["class"].map (·.toList.head?) :=
    initial_mem_of_fits (fun hkey => ⟨_, List.mem_singleton_self _, (fits_text.1 hkey).1⟩)
      (by decide) h
  exact List.mem_singleton.1 hmem

theorem initial_arrowHead (h : arrowHead.FitsIn line) :
    initial line ∈ [some 'c', some 'l', some 'v'] := by
  simp only [arrowHead, fitsIn_assoc] at h
  have hmem : initial line ∈ ["const", "let", "var"].map (·.toList.head?) := by
    refine initial_mem_of_fits ?_ (by decide) h
    rintro left piece right kept (hkey | hkey | hkey)
    all_goals exact ⟨_, by decide, (fits_text.1 hkey).1⟩
  exact hmem

/-- **The issues of a line with a function statement are those of the statement.** -/
theorem lineIssues_of_function (h : functionHead.search line = some m) :
    lineIssues f line following n = declarationIssues f line following n m := by
  have hfits : functionHead.FitsIn line := by
    obtain ⟨left, piece, right, htext, hfits⟩ := exists_fits_of_search h
    exact ⟨left, piece, right, _, htext, hfits⟩
  have hinitial := initial_functionHead hfits
  have harrow : ¬ arrowHead.FitsIn line := fun h =>
    absurd (hinitial ▸ initial_arrowHead h) (by decide)
  have hclass : ¬ componentClass.FitsIn line := fun h =>
    absurd (hinitial.symm.trans (initial_componentClass h)) (by decide)
  simp only [lineIssues, h, search_eq_none_iff.2 harrow, search_eq_none_iff.2 hclass,
    List.append_nil]

/-! ## Reports -/

theorem mem_namingIssuesFrom : i ∈ namingIssuesFrom f n lines ↔
    ∃ k line, lines[k]? = some line ∧ i ∈ lineIssues f line (lines.drop k) (n + k) := by
  induction lines generalizing n with
  | nil => simp [namingIssuesFrom]
  | cons line rest ih =>
    rw [namingIssuesFrom, List.mem_append, ih]
    constructor
    · rintro (h | ⟨k, line', hline', h⟩)
      · exact ⟨0, line, rfl, h⟩
      · exact ⟨k + 1, line', hline', by rwa [Nat.add_right_comm, Nat.add_assoc] at h⟩
    · rintro ⟨k, line', hline', h⟩
      cases k with
      | zero =>
        obtain rfl := Option.some.inj hline'
        exact .inl h
      | succ k => exact .inr ⟨k, line', hline', by rwa [Nat.add_right_comm, Nat.add_assoc]⟩

theorem line_of_mem_badComponent (h : i ∈ badComponent f n m) : i.line = n := by
  rw [badComponent, List.mem_ite_nil_left, List.mem_singleton] at h
  rw [h.2]
  rfl

theorem line_of_mem_tooManyParameters {r : RuleInfo} {path : String} {column count : Nat}
    (h : i ∈ tooManyParameters r path n column count) : i.ruleId = r.id ∧ i.line = n := by
  rw [tooManyParameters, List.mem_ite_nil_left, List.mem_singleton] at h
  rw [h.2]
  exact ⟨rfl, rfl⟩

theorem line_of_mem_declarationIssues (h : i ∈ declarationIssues f line following n m) :
    i.line = n := by
  rw [declarationIssues] at h
  rcases List.mem_append.1 h with h | h
  · split at h
    · exact line_of_mem_badComponent h
    · rw [List.mem_ite_nil_left, List.mem_singleton] at h
      rw [h.2]
      rfl
  · exact (line_of_mem_tooManyParameters h).2

theorem line_of_mem_lineIssues (h : i ∈ lineIssues f line following n) : i.line = n := by
  simp only [lineIssues, List.mem_append] at h
  rcases h with (h | h) | h <;> split at h
  · exact line_of_mem_declarationIssues h
  · cases h
  · exact line_of_mem_declarationIssues h
  · cases h
  · exact line_of_mem_badComponent h
  · cases h

/-- The name of a component is reported at a line. -/
def ComponentReported (f : SourceFile) (n : Nat) : Prop :=
  ∃ i ∈ namingIssuesFrom f 1 f.lines, i.ruleId = Catalogue.componentName.id ∧ i.line = n

theorem componentReported_iff (hline : f.lines[k]? = some line) : ComponentReported f (k + 1) ↔
    ∃ i ∈ lineIssues f line (f.lines.drop k) (k + 1), i.ruleId = Catalogue.componentName.id := by
  constructor
  · rintro ⟨i, hi, hid, hat⟩
    obtain ⟨k', line', hline', hi⟩ := mem_namingIssuesFrom.1 hi
    have hk : 1 + k' = k + 1 := coord_inj.1 ((line_of_mem_lineIssues hi).symm.trans hat)
    obtain rfl : k' = k := by omega
    obtain rfl := Option.some.inj (hline'.symm.trans hline)
    exact ⟨i, hk ▸ hi, hid⟩
  · rintro ⟨i, hi, hid⟩
    refine ⟨i, mem_namingIssuesFrom.2 ⟨k, line, hline, ?_⟩, hid, line_of_mem_lineIssues hi⟩
    rwa [Nat.add_comm]

/-- A declaration's name is reported as that of a component if it looks like one and has not got
the name of one. -/
theorem exists_componentIssue_iff :
    (∃ i ∈ declarationIssues f line following n m, i.ruleId = Catalogue.componentName.id) ↔
      looksLikeComponent (m.group 1) line following = true ∧
        isUpperCamelCase (m.group 1) = false := by
  constructor
  · rintro ⟨i, hi, hid⟩
    rcases List.mem_append.1 hi with hi | hi
    · split at hi
      next hlooks =>
        rw [badComponent, List.mem_ite_nil_left] at hi
        exact ⟨hlooks, Bool.eq_false_iff.2 hi.1⟩
      next =>
        rw [List.mem_ite_nil_left, List.mem_singleton] at hi
        rw [hi.2] at hid
        have hids : Catalogue.scriptFunctionName.id ≠ Catalogue.componentName.id := by decide
        exact absurd hid hids
    · exact absurd ((line_of_mem_tooManyParameters hi).1.symm.trans hid) (by decide)
  · rintro ⟨hlooks, hupper⟩
    have hbad : badComponent f n m = [Catalogue.componentName.issue f.path n (m.column 1)
        "React component names should be UpperCamelCase."] :=
      if_neg (Bool.eq_false_iff.1 hupper)
    refine ⟨Catalogue.componentName.issue f.path n (m.column 1)
      "React component names should be UpperCamelCase.", List.mem_append_left _ ?_, rfl⟩
    rw [if_pos hlooks, hbad]
    exact List.mem_singleton_self _

theorem not_upper_of_lower {name : List Char} (h : isLowerCamelCase name = true) :
    isUpperCamelCase name = false := by
  obtain ⟨c, rest, rfl, hlower, -⟩ := matchesAll_one_star.1 h
  refine Bool.eq_false_iff.2 fun hupper => ?_
  obtain ⟨_, _, heq, hc, -⟩ := isUpperCamelCase_iff.1 hupper
  obtain ⟨rfl, -⟩ := List.cons.inj heq
  have hge : 'a'.val ≤ c.val := of_decide_eq_true ((Bool.and_eq_true _ _).mp hlower).1
  have hle : c.val ≤ 'Z'.val := (of_decide_eq_true hc).2
  exact absurd (UInt32.le_trans hge hle) (by decide)

/-- A function with a small first letter, in a line that speaks neither of React nor of JSX, looks
like a component where a tag follows. -/
theorem looksLikeComponent_iff {name : List Char} (hname : isLowerCamelCase name = true)
    (hreact : ¬ "React".toList <:+: line) (hjsx : ¬ "jsx".toList <:+: lower line) :
    looksLikeComponent name line following = true ↔
      ∃ near ∈ following.take tagWindow, OpensTag near := by
  rw [looksLikeComponent, not_upper_of_lower hname, Bool.eq_false_iff.2 (mt contains_iff.1 hreact),
    Bool.eq_false_iff.2 (mt contains_iff.1 hjsx), Bool.false_or, Bool.false_or, Bool.false_or,
    occurs_tag_iff, opensTag_intercalate]

/-- **A function with a small first letter is taken for a component where a letter follows `<`.**
In a text that speaks neither of React nor of JSX, the name of such a function is reported as that
of a component exactly if a letter stands right behind `<` in one of the eight lines from its own
on. -/
theorem small_function_reported_iff (path : Path) (text : List Char)
    (hreact : ¬ "react".toList <:+: lower text) (hjsx : ¬ "jsx".toList <:+: lower text)
    (k : Nat) (line : List Char) (hline : (splitLines text)[k]? = some line) (m : Found)
    (hdeclared : functionHead.search line = some m) (hname : isLowerCamelCase (m.group 1) = true) :
    ComponentReported (.of path text) (k + 1) ↔
      ∃ near ∈ ((splitLines text).drop k).take tagWindow, OpensTag near := by
  have hpart : line <:+: text := infix_of_mem_splitLines (List.mem_of_getElem? hline)
  have hreact' : ¬ "React".toList <:+: line := fun h =>
    hreact (infix_lower_of_part (h.trans hpart) (by decide) (by decide) (List.infix_refl _))
  have hjsx' : ¬ "jsx".toList <:+: lower line := fun h =>
    hjsx (infix_lower_of_part hpart (by decide) (by decide) h)
  rw [componentReported_iff hline, lineIssues_of_function hdeclared, exists_componentIssue_iff,
    looksLikeComponent_iff hname hreact' hjsx', and_iff_left (not_upper_of_lower hname)]
  rfl

/-- A function that compares, with a blank behind `<`. -/
def spacedComparison : List Char := "function fits(n) \x7b\n  return n < max\n\x7d".toList

theorem spacedComparison_not_reported :
    (∃ m, functionHead.search "function fits(n) \x7b".toList = some m ∧
      isLowerCamelCase (m.group 1) = true) ∧
    ¬ ComponentReported (.of ⟨.relative, ["a.js"]⟩ spacedComparison) 1 := by
  have hdeclared : (functionHead.search "function fits(n) \x7b".toList).any
      (fun m => isLowerCamelCase (m.group 1)) = true := by decide +kernel
  obtain ⟨m, hm, hname⟩ := (Option.any_eq_true _ _).1 hdeclared
  have hreact : ¬ "react".toList <:+: lower spacedComparison := by
    rw [← contains_iff]
    decide +kernel
  have hjsx : ¬ "jsx".toList <:+: lower spacedComparison := by
    rw [← contains_iff]
    decide +kernel
  have hlines : ((splitLines spacedComparison).drop 0).take tagWindow =
      ["function fits(n) \x7b".toList, "  return n < max".toList, "\x7d".toList] := by
    decide +kernel
  refine ⟨⟨m, hm, hname⟩, fun h => ?_⟩
  obtain ⟨near, hnear, htag⟩ :=
    (small_function_reported_iff _ _ hreact hjsx 0 _ (by decide +kernel) m hm hname).1 h
  rw [hlines] at hnear
  have hnone : (["function fits(n) \x7b".toList, "  return n < max".toList, "\x7d".toList].all
      fun near => !tag.occurs near) = true := by decide +kernel
  have hoccurs := List.all_eq_true.1 hnone near hnear
  rw [occurs_tag_iff.2 htag] at hoccurs
  cases hoccurs

/-- A function that compares, with a letter right behind `<`. -/
def tightComparison : List Char := "function f()\x7breturn 0<n\x7d".toList

/-- **A comparison makes a function a component**, in a text without `>` that speaks neither of
React nor of JSX. -/
theorem tightComparison_reported : '>' ∉ tightComparison ∧
    ¬ "react".toList <:+: lower tightComparison ∧ ¬ "jsx".toList <:+: lower tightComparison ∧
    (∃ m, functionHead.search tightComparison = some m ∧
      isLowerCamelCase (m.group 1) = true) ∧
    ComponentReported (.of ⟨.relative, ["a.js"]⟩ tightComparison) 1 := by
  have hdeclared : (functionHead.search tightComparison).any
      (fun m => isLowerCamelCase (m.group 1)) = true := by decide +kernel
  obtain ⟨m, hm, hname⟩ := (Option.any_eq_true _ _).1 hdeclared
  have hissue : ((namingIssuesFrom (.of ⟨.relative, ["a.js"]⟩ tightComparison) 1
      (splitLines tightComparison)).any fun i =>
        i.ruleId == Catalogue.componentName.id && i.line == ((1 : Nat) : Coord)) = true := by
    decide +kernel
  obtain ⟨i, hi, hat⟩ := List.any_eq_true.1 hissue
  rw [Bool.and_eq_true, beq_iff_eq, beq_iff_eq] at hat
  refine ⟨by decide +kernel, ?_, ?_, ⟨m, hm, hname⟩, i, hi, hat.1, hat.2⟩
  all_goals
    rw [← contains_iff]
    decide +kernel

end Checks.JavaScript

end CodeAudit
