import CodeAudit.Proofs.Disk.Rewriting
import CodeAudit.Proofs.Scan.Separation
import CodeAudit.Proofs.Text.Casing
import Mathlib.Data.List.TakeWhile

/-!
# The language that a report names

A report tells the language of a file by the end of its whole path in lower case, and the checks are
chosen by the ending of its last name, whose own dot may not be its first character. Both see the
same: what ends a path behind a dot or a slash ends its last name (`IsLastName.endsIn_iff`), and is
the ending of that name unless it is all of the name (`endsIn_dot_iff`). So a report names the
language whose checks a file gets, exactly if the name of the file is not a mere ending
(`label_names_checks_iff`).
-/

namespace CodeAudit

open Text

variable {name word text : List Char} {d : Char}

/-! ## Words at the end of a path -/

/-- A word behind a divider, as it is looked for at the end of a path. -/
structure IsEnding (d : Char) (word : List Char) : Prop where
  divider : IsDivider d
  ne_nil : word ≠ []
  dot : '.' ∉ word
  slash : '/' ∉ word
  final : 'ς' ∉ word
  sigma : 'σ' ∉ word

instance (d : Char) (word : List Char) : Decidable (IsEnding d word) :=
  decidable_of_iff ((d = '.' ∨ d = '/') ∧ word ≠ [] ∧ '.' ∉ word ∧ '/' ∉ word ∧ 'ς' ∉ word ∧
      'σ' ∉ word)
    ⟨fun h => ⟨h.1, h.2.1, h.2.2.1, h.2.2.2.1, h.2.2.2.2.1, h.2.2.2.2.2⟩,
      fun h => ⟨h.divider, h.ne_nil, h.dot, h.slash, h.final, h.sigma⟩⟩

/-- **A path ends in something**, in whatever case. Its start counts as a slash. -/
def EndsIn (ending text : List Char) : Prop := ending <:+ '/' :: lower text

/-- **The last name in the text of a path** is what stands behind the last slash. -/
structure IsLastName (name text : List Char) : Prop where
  slash : '/' ∉ name
  last : '/' :: name <:+ '/' :: text

namespace IsEnding

variable (h : IsEnding d word)
include h

theorem not_mem {d' : Char} (hd' : IsDivider d') : d' ∉ word := by
  rcases hd' with rfl | rfl
  · exact h.dot
  · exact h.slash

theorem not_mem_of_lower_eq {part : List Char} (hpart : lower part = word) {d' : Char}
    (hd' : IsDivider d') : d' ∉ part := by
  rw [← mem_lower_iff hd', hpart]
  exact h.not_mem hd'

/-- Nothing ends in two ways. -/
theorem eq_of_suffix {d' : Char} {word' : List Char} (h' : IsEnding d' word')
    (hends : d :: word <:+ text) (hends' : d' :: word' <:+ text) : d :: word = d' :: word' := by
  rcases List.suffix_or_suffix_of_suffix hends hends' with hin | hin
  · rcases List.suffix_cons_iff.1 hin with heq | hin
    · exact heq
    · exact absurd (hin.subset List.mem_cons_self) (h'.not_mem h.divider)
  · rcases List.suffix_cons_iff.1 hin with heq | hin
    · exact heq.symm
    · exact absurd (hin.subset List.mem_cons_self) (h.not_mem h'.divider)

/-- The word at the end of a path is the lower case of what stands there. -/
theorem endsIn_iff : EndsIn (d :: word) text ↔
    ∃ behind, d :: behind <:+ '/' :: text ∧ lower behind = word := by
  rw [EndsIn, List.suffix_cons_iff, suffix_lower_iff h.divider h.final h.sigma]
  constructor
  · rintro (heq | ⟨behind, hbehind, hlower⟩)
    · obtain ⟨rfl, hlower⟩ := List.cons.inj heq
      exact ⟨text, List.suffix_rfl, hlower.symm⟩
    · exact ⟨behind, hbehind.trans (List.suffix_cons _ _), hlower⟩
  · rintro ⟨behind, hbehind, hlower⟩
    rcases List.suffix_cons_iff.1 hbehind with heq | hbehind
    · obtain ⟨rfl, rfl⟩ := List.cons.inj heq
      exact .inl (by rw [hlower])
    · exact .inr ⟨behind, hbehind, hlower⟩

end IsEnding

/-- **A path ends as its last name does.** -/
theorem IsLastName.endsIn_iff (hlast : IsLastName name text) (h : IsEnding d word) :
    EndsIn (d :: word) text ↔ EndsIn (d :: word) name := by
  rw [h.endsIn_iff, h.endsIn_iff]
  refine exists_congr fun behind => and_congr_left fun hlower => ?_
  refine ⟨fun hbehind => ?_, fun hbehind => hbehind.trans hlast.last⟩
  rcases List.suffix_or_suffix_of_suffix hbehind hlast.last with hin | hin
  · exact hin
  · rcases List.suffix_cons_iff.1 hin with heq | hin
    · exact heq ▸ List.suffix_rfl
    · exact absurd (hin.subset List.mem_cons_self) (h.not_mem_of_lower_eq hlower (.inr rfl))

/-- A name ends in a word behind a slash if it is that word. -/
theorem endsIn_slash_iff (hname : '/' ∉ name) (h : IsEnding '/' word) :
    EndsIn ('/' :: word) name ↔ lower name = word := by
  rw [h.endsIn_iff]
  constructor
  · rintro ⟨behind, hbehind, hlower⟩
    rcases List.suffix_cons_iff.1 hbehind with heq | hin
    · rw [← hlower, (List.cons.inj heq).2]
    · exact absurd (hin.subset List.mem_cons_self) hname
  · exact fun hlower => ⟨name, List.suffix_rfl, hlower⟩

/-! ## Endings of names -/

namespace Path

theorem suffixOf_of_not_mem (h : '.' ∉ name) : suffixOf name = [] := by
  have hall : name.reverse.takeWhile (· ≠ '.') = name.reverse := by
    refine List.takeWhile_eq_self_iff.2 fun c hc => decide_eq_true ?_
    rintro rfl
    exact h (List.mem_reverse.1 hc)
  rw [suffixOf, hall, if_pos (.inl (by simp))]

theorem suffixOf_append {before ending : List Char} (h : '.' ∉ ending) :
    suffixOf (before ++ '.' :: ending) =
      if before = [] ∨ ending = [] then [] else '.' :: ending := by
  have hlast : (before ++ '.' :: ending).reverse.takeWhile (· ≠ '.') = ending.reverse := by
    rw [List.reverse_append, List.reverse_cons, List.append_assoc, List.takeWhile_append_of_pos,
      List.singleton_append, List.takeWhile_cons_of_neg (by simp), List.append_nil]
    intro c hc
    refine decide_eq_true ?_
    rintro rfl
    exact h (List.mem_reverse.1 hc)
  have hshort : (before ++ '.' :: ending).length - ending.length ≤ 1 ↔ before = [] := by
    rw [← List.length_eq_zero_iff, List.length_append, List.length_cons]
    omega
  rw [suffixOf, hlast, List.reverse_reverse]
  simp only [hshort]

/-- The last dot of a name divides it. -/
theorem exists_last_dot (h : '.' ∈ name) :
    ∃ before ending, name = before ++ '.' :: ending ∧ '.' ∉ ending := by
  obtain ⟨ending, before, heq, hending⟩ := List.eq_append_cons_of_mem (List.mem_reverse.2 h)
  refine ⟨before.reverse, ending.reverse, ?_, mt List.mem_reverse.1 hending⟩
  rw [← List.reverse_reverse name, heq]
  simp

theorem lower_suffixOf_eq_iff (h : IsEnding '.' word) : lower (suffixOf name) = '.' :: word ↔
    ∃ before behind, before ≠ [] ∧ before ++ '.' :: behind = name ∧ lower behind = word := by
  have hcons {rest : List Char} := @lower_cons_eq_iff _ _ h.divider h.final h.sigma rest
  constructor
  · intro hsuffix
    by_cases hdot : '.' ∈ name
    · obtain ⟨before, ending, rfl, hending⟩ := exists_last_dot hdot
      rw [suffixOf_append hending] at hsuffix
      split at hsuffix
      next => exact absurd hsuffix (List.cons_ne_nil _ _).symm
      next hne => exact ⟨before, ending, fun hnil => hne (.inl hnil), rfl, hcons.1 hsuffix⟩
    · rw [suffixOf_of_not_mem hdot] at hsuffix
      exact absurd hsuffix (List.cons_ne_nil _ _).symm
  · rintro ⟨before, behind, hbefore, rfl, hlower⟩
    have hbehind : behind ≠ [] := by
      rintro rfl
      exact h.ne_nil hlower.symm
    rw [suffixOf_append (h.not_mem_of_lower_eq hlower h.divider),
      if_neg (not_or.2 ⟨hbefore, hbehind⟩), hcons, hlower]

/-- A name that is a mere ending has none. -/
theorem suffixOf_eq_nil_of_lower_eq (h : IsEnding '.' word) (hname : lower name = '.' :: word) :
    suffixOf name = [] := by
  obtain ⟨rest, rfl⟩ := exists_cons_of_lower_eq h.divider hname
  have hrest : lower rest = word := (lower_cons_eq_iff h.divider h.final h.sigma).1 hname
  have happend := @suffixOf_append [] rest (h.not_mem_of_lower_eq hrest h.divider)
  rwa [if_pos (.inl rfl)] at happend

end Path

/-- **A name ends in a word behind a dot** if this is its ending, or all of it. -/
theorem endsIn_dot_iff (h : IsEnding '.' word) : EndsIn ('.' :: word) name ↔
    lower (Path.suffixOf name) = '.' :: word ∨ lower name = '.' :: word := by
  rw [h.endsIn_iff, Path.lower_suffixOf_eq_iff h]
  constructor
  · rintro ⟨behind, hbehind, hlower⟩
    rcases List.suffix_cons_iff.1 hbehind with heq | ⟨_ | ⟨c, before⟩, rfl⟩
    · exact absurd (List.cons.inj heq).1 (by decide)
    · exact .inr ((lower_cons_eq_iff h.divider h.final h.sigma).2 hlower)
    · exact .inl ⟨c :: before, behind, List.cons_ne_nil _ _, rfl, hlower⟩
  · rintro (⟨before, behind, -, rfl, hlower⟩ | hname)
    · exact ⟨behind, (List.suffix_append _ _).trans (List.suffix_cons _ _), hlower⟩
    · obtain ⟨rest, rfl⟩ := exists_cons_of_lower_eq h.divider hname
      exact ⟨rest, List.suffix_cons _ _, (lower_cons_eq_iff h.divider h.final h.sigma).1 hname⟩

namespace Path

variable {p : Path}

theorem slash_not_mem_name (h : p.Plain) : '/' ∉ p.name.toList := by
  by_cases hparts : p.parts = []
  · rw [name, hparts]
    exact List.not_mem_nil
  · rw [name, List.getLast?_eq_some_getLast hparts]
    exact (h _ (List.getLast_mem hparts)).2.2

/-- The last of some names ends their text. -/
theorem suffix_intercalate {names : List String} (hnames : names ≠ []) :
    '/' :: (names.getLast hnames).toList <:+ '/' :: ("/".intercalate names).toList := by
  induction names with
  | nil => exact absurd rfl hnames
  | cons first rest ih =>
    cases rest with
    | nil => exact String.intercalate_singleton ▸ List.suffix_rfl
    | cons next rest =>
      have htext : ("/".intercalate (first :: next :: rest)).toList =
          first.toList ++ '/' :: ("/".intercalate (next :: rest)).toList := by
        rw [String.intercalate_cons_cons, String.toList_append, String.toList_append]
        simp
      rw [List.getLast_cons_cons, htext]
      exact (ih (List.cons_ne_nil _ _)).trans
        ((List.suffix_append _ _).trans (List.suffix_cons _ _))

/-- A root is nothing or ends with a slash. -/
theorem suffix_rootText (root : Root) (text : List Char) :
    '/' :: text <:+ '/' :: ((rootText root).toList ++ text) := by
  cases root with
  | relative => exact List.suffix_rfl
  | slash => exact List.suffix_cons _ _
  | doubleSlash => exact ⟨['/', '/'], rfl⟩

/-- The last name of a path is the last in its text, unless the path stays where it is. -/
theorem isLastName_toString (h : p.Plain) (hp : p ≠ ⟨.relative, []⟩) :
    IsLastName p.name.toList p.toString.toList := by
  have htext : p.toString.toList =
      (rootText p.root).toList ++ ("/".intercalate p.parts).toList := by
    rw [toString, if_neg, String.toList_append]
    rintro ⟨hroot, hparts⟩
    exact hp (by rw [← hroot, ← hparts])
  refine ⟨slash_not_mem_name h, ?_⟩
  rw [htext]
  refine List.IsSuffix.trans ?_ (suffix_rootText p.root _)
  by_cases hparts : p.parts = []
  · rw [name, hparts]
    exact List.suffix_rfl
  · rw [name, List.getLast?_eq_some_getLast hparts]
    exact suffix_intercalate hparts

end Path

/-! ## Labels -/

namespace Language

/-- The endings of files in a language. -/
def endings : Language → List (List Char)
  | python => [".py".toList]
  | java => [".java".toList]
  | kotlin => [".kt".toList]
  | go => [".go".toList]
  | javaScript => [".js".toList, ".jsx".toList, ".ts".toList, ".tsx".toList]
  | yaml => [".yaml".toList, ".yml".toList]
  | dockerfile => [".dockerfile".toList]
  | other => []

/-- The names of files in a language. -/
def names : Language → List (List Char)
  | dockerfile => ["dockerfile".toList]
  | _ => []

/-- What the paths of files in a language end in. -/
def marks (l : Language) : List (List Char) := l.endings ++ l.names.map ('/' :: ·)

/-- The languages in the order in which they are looked for. -/
def known : List Language := [python, java, kotlin, go, javaScript, yaml, dockerfile]

variable {l l' : Language} {m m' : List Char} {path : String}

theorem mem_known (hl : l ≠ .other) : l ∈ known := by
  cases l with
  | other => exact absurd rfl hl
  | _ => decide

theorem exists_isEnding (hm : m ∈ l.endings) : ∃ word, m = '.' :: word ∧ IsEnding '.' word := by
  have hall : ∀ l ∈ known, ∀ m ∈ l.endings, m = '.' :: m.tail ∧ IsEnding '.' m.tail := by decide
  have hl : l ≠ .other := by
    rintro rfl
    exact List.not_mem_nil hm
  exact ⟨m.tail, hall l (mem_known hl) m hm⟩

theorem isEnding_of_mem_names (hm : m ∈ l.names) : IsEnding '/' m := by
  cases l with
  | dockerfile => exact List.mem_singleton.1 hm ▸ by decide
  | _ => exact absurd hm List.not_mem_nil

theorem mem_marks_iff : m ∈ l.marks ↔ m ∈ l.endings ∨ ∃ n ∈ l.names, '/' :: n = m := by
  rw [marks, List.mem_append, List.mem_map]

theorem exists_isEnding_of_mem_marks (hm : m ∈ l.marks) :
    ∃ d word, m = d :: word ∧ IsEnding d word := by
  rcases mem_marks_iff.1 hm with hm | ⟨n, hn, rfl⟩
  · obtain ⟨word, hword⟩ := exists_isEnding hm
    exact ⟨'.', word, hword⟩
  · exact ⟨'/', n, rfl, isEnding_of_mem_names hn⟩

/-- A path ends like those of one language only. -/
theorem eq_of_endsIn (hl : l ≠ .other) (hl' : l' ≠ .other) (hm : m ∈ l.marks) (hm' : m' ∈ l'.marks)
    (h : EndsIn m text) (h' : EndsIn m' text) : l = l' := by
  obtain ⟨d, word, rfl, hending⟩ := exists_isEnding_of_mem_marks hm
  obtain ⟨d', word', rfl, hending'⟩ := exists_isEnding_of_mem_marks hm'
  have hall : ∀ l ∈ known, ∀ l' ∈ known, ∀ m ∈ l.marks, m ∈ l'.marks → l = l' := by decide
  rw [← hending.eq_of_suffix hending' h h'] at hm'
  exact hall l (mem_known hl) l' (mem_known hl') _ hm hm'

/-- Whether a path ends like those of files in a language. -/
def fits (path : String) (l : Language) : Bool :=
  l.marks.any (·.isSuffixOf ('/' :: lower path.toList))

theorem fits_iff : fits path l = true ↔ ∃ m ∈ l.marks, EndsIn m path.toList := by
  simp [fits, EndsIn]

theorem fits_eq : fits path l = (l.endings.any (·.isSuffixOf (lower path.toList)) ||
    l.names.any fun n => ('/' :: n).isSuffixOf (lower path.toList) || lower path.toList == n) := by
  have hdot : ∀ m ∈ l.endings,
      m.isSuffixOf ('/' :: lower path.toList) = m.isSuffixOf (lower path.toList) := by
    intro m hm
    obtain ⟨word, rfl, -⟩ := exists_isEnding hm
    rw [Bool.eq_iff_iff, List.isSuffixOf_iff_suffix, List.isSuffixOf_iff_suffix,
      List.suffix_cons_iff]
    exact or_iff_right fun heq => absurd (List.cons.inj heq).1 (by decide)
  have hslash (n : List Char) : ('/' :: n).isSuffixOf ('/' :: lower path.toList) =
      (('/' :: n).isSuffixOf (lower path.toList) || lower path.toList == n) := by
    rw [Bool.eq_iff_iff, Bool.or_eq_true, List.isSuffixOf_iff_suffix, List.isSuffixOf_iff_suffix,
      List.suffix_cons_iff, beq_iff_eq, or_comm, List.cons_eq_cons, eq_self, true_and,
      @eq_comm _ n]
  have hendings : l.endings.any (·.isSuffixOf ('/' :: lower path.toList)) =
      l.endings.any (·.isSuffixOf (lower path.toList)) := by
    rw [Bool.eq_iff_iff, List.any_eq_true, List.any_eq_true]
    exact exists_congr fun m => and_congr_right fun hm => by rw [hdot m hm]
  rw [fits, marks, List.any_append, List.any_map, hendings]
  exact congrArg _ (congrArg l.names.any (funext hslash))

/-- **The label of a path is the first language whose paths end so.** -/
theorem ofPath_eq_find (path : String) :
    ofPath path = (known.find? (fits path)).getD .other := by
  have hfind (l : Language) (rest : List Language) :
      ((l :: rest).find? (fits path)).getD .other =
        if fits path l = true then l else (rest.find? (fits path)).getD .other := by
    rw [List.find?_cons]
    cases fits path l <;> rfl
  rw [known, hfind, hfind, hfind, hfind, hfind, hfind, hfind]
  simp only [fits_eq, endings, names, List.any_cons, List.any_nil, Bool.or_false]
  unfold ofPath
  simp only [List.any_cons, List.any_nil, Bool.or_false, Bool.or_assoc]
  rfl

/-- **A path has the label of a language if it ends like those of that language.** -/
theorem ofPath_eq_iff (hl : l ≠ .other) :
    ofPath path = l ↔ ∃ m ∈ l.marks, EndsIn m path.toList := by
  rw [ofPath_eq_find, ← fits_iff]
  constructor
  · rintro rfl
    cases hfind : known.find? (fits path) with
    | none => exact absurd (by rw [hfind]; rfl) hl
    | some l => exact List.find?_some hfind
  · intro hfits
    obtain ⟨l', hfind⟩ := Option.isSome_iff_exists.1
      (List.find?_isSome.2 ⟨l, mem_known hl, hfits⟩)
    obtain ⟨m, hm, hends⟩ := fits_iff.1 hfits
    obtain ⟨m', hm', hends'⟩ := fits_iff.1 (List.find?_some hfind)
    have hl' : l' ∈ known := List.mem_of_find?_eq_some hfind
    rw [hfind, eq_of_endsIn hl (by rintro rfl; exact absurd hl' (by decide)) hm hm' hends hends']
    rfl

/-- **A name ends like the paths of a language** if it has one of its endings, or is one of its
names, or is a mere ending. -/
theorem exists_endsIn_name_iff (hname : '/' ∉ name) : (∃ m ∈ l.marks, EndsIn m name) ↔
    (lower (Path.suffixOf name) ∈ l.endings ∨ lower name ∈ l.names) ∨ lower name ∈ l.endings := by
  constructor
  · rintro ⟨m, hm, hends⟩
    rcases mem_marks_iff.1 hm with hm | ⟨n, hn, rfl⟩
    · obtain ⟨word, rfl, hending⟩ := exists_isEnding hm
      rcases (endsIn_dot_iff hending).1 hends with heq | heq
      · exact .inl (.inl (heq ▸ hm))
      · exact .inr (heq ▸ hm)
    · exact .inl (.inr ((endsIn_slash_iff hname (isEnding_of_mem_names hn)).1 hends ▸ hn))
  · have hdot {m : List Char} (hm : m ∈ l.endings)
        (h : lower (Path.suffixOf name) = m ∨ lower name = m) : ∃ m ∈ l.marks, EndsIn m name := by
      obtain ⟨word, rfl, hending⟩ := exists_isEnding hm
      exact ⟨_, mem_marks_iff.2 (.inl hm), (endsIn_dot_iff hending).2 h⟩
    rintro ((hm | hn) | hm)
    · exact hdot hm (.inl rfl)
    · exact ⟨_, mem_marks_iff.2 (.inr ⟨_, hn, rfl⟩),
        (endsIn_slash_iff hname (isEnding_of_mem_names hn)).2 rfl⟩
    · exact hdot hm (.inr rfl)

end Language

/-! ## Checks -/

namespace Checks

open Container

/-- The language that a group of checks is for. -/
def Analyser.language : Analyser → Language
  | python => .python
  | java => .java
  | kotlin => .kotlin
  | javaScript => .javaScript
  | go => .go
  | anySource => .other

theorem Analyser.ofSuffix_eq_iff {a : Analyser} (ha : a ≠ .anySource) {suffix : List Char} :
    ofSuffix suffix = a ↔ suffix ∈ a.language.endings := by
  constructor
  · rintro rfl
    unfold ofSuffix at ha ⊢
    split_ifs at ha ⊢ with hpy hjava hkt hjs hgo
    · exact List.mem_singleton.2 hpy
    · exact List.mem_singleton.2 hjava
    · exact List.mem_singleton.2 hkt
    · exact List.contains_iff_mem.1 hjs
    · exact List.mem_singleton.2 hgo
    · exact absurd rfl ha
  · revert suffix
    cases a with
    | anySource => exact absurd rfl ha
    | _ => decide

/-- **A file gets the checks for a language.** -/
def GetsChecksFor (f : SourceFile) : Language → Prop
  | .python => Analyser.ofSuffix f.suffix = .python
  | .java => Analyser.ofSuffix f.suffix = .java
  | .kotlin => Analyser.ofSuffix f.suffix = .kotlin
  | .go => Analyser.ofSuffix f.suffix = .go
  | .javaScript => Analyser.ofSuffix f.suffix = .javaScript
  | .yaml => isManifest f = true
  | .dockerfile => isRecipe f = true
  | .other => Analyser.ofSuffix f.suffix = .anySource ∧ isManifest f = false ∧ isRecipe f = false

variable {f : SourceFile} {l : Language}

theorem getsChecksFor_iff (hl : l ≠ .other) :
    GetsChecksFor f l ↔ f.suffix ∈ l.endings ∨ lower f.name ∈ l.names := by
  cases l with
  | other => exact absurd rfl hl
  | yaml => simp [GetsChecksFor, isManifest, Language.endings, Language.names]
  | dockerfile => simp [GetsChecksFor, isRecipe, Language.endings, Language.names, or_comm]
  | _ =>
    refine Iff.trans ?_ (or_iff_left List.not_mem_nil).symm
    exact Analyser.ofSuffix_eq_iff (by decide)

/-- A file that gets the checks for no language is one of another. -/
theorem getsChecksFor_other_iff :
    GetsChecksFor f .other ↔ ∀ l, l ≠ .other → ¬ GetsChecksFor f l := by
  constructor
  · rintro ⟨hsuffix, hmanifest, hrecipe⟩ l hl h
    cases l <;> simp_all [GetsChecksFor]
  · intro h
    have hmanifest := h .yaml (by decide)
    have hrecipe := h .dockerfile (by decide)
    refine ⟨?_, Bool.eq_false_iff.2 hmanifest, Bool.eq_false_iff.2 hrecipe⟩
    cases hsuffix : Analyser.ofSuffix f.suffix with
    | anySource => rfl
    | python => exact absurd hsuffix (h .python (by decide))
    | java => exact absurd hsuffix (h .java (by decide))
    | kotlin => exact absurd hsuffix (h .kotlin (by decide))
    | javaScript => exact absurd hsuffix (h .javaScript (by decide))
    | go => exact absurd hsuffix (h .go (by decide))

theorem suffix_of (p : Path) (text : List Char) :
    (SourceFile.of p text).suffix = lower (Path.suffixOf p.name.toList) := rfl

theorem name_of (p : Path) (text : List Char) : (SourceFile.of p text).name = p.name.toList := rfl

/-- **A mere ending**: nothing but what the names of files in a language end in. -/
def IsMereEnding (name : String) : Prop := ∃ l : Language, lower name.toList ∈ l.endings

/-- **The label of a file** is the language whose checks it gets, or whose ending is all of its
name. -/
theorem ofPath_iff_of_isLastName {p : Path} {shown : String}
    (hlast : IsLastName p.name.toList shown.toList) (text : List Char) (hl : l ≠ .other) :
    Language.ofPath shown = l ↔
      GetsChecksFor (.of p text) l ∨ lower p.name.toList ∈ l.endings := by
  rw [getsChecksFor_iff hl, suffix_of, name_of, ← Language.exists_endsIn_name_iff hlast.slash,
    Language.ofPath_eq_iff hl]
  refine exists_congr fun m => and_congr_right fun hm => ?_
  obtain ⟨d, word, rfl, hending⟩ := Language.exists_isEnding_of_mem_marks hm
  exact hlast.endsIn_iff hending

theorem ofPath_toString_iff {p : Path} (h : p.Plain) (text : List Char) (hl : l ≠ .other) :
    Language.ofPath p.toString = l ↔
      GetsChecksFor (.of p text) l ∨ lower p.name.toList ∈ l.endings := by
  by_cases hp : p = ⟨.relative, []⟩
  · subst hp
    -- The text is a dot, which is not the last name, but has no label either.
    have hdot : Language.ofPath (Path.toString ⟨.relative, []⟩) = Language.ofPath "" := by decide
    have hlast : IsLastName (Path.name ⟨.relative, []⟩).toList "".toList :=
      ⟨List.not_mem_nil, List.suffix_rfl⟩
    rw [hdot]
    exact ofPath_iff_of_isLastName hlast text hl
  · exact ofPath_iff_of_isLastName (Path.isLastName_toString h hp) text hl

/-- So the two agree exactly if the name is not a mere ending. -/
theorem forall_label_iff {p : Path} {text : List Char} {label : Language}
    (hlabel : ∀ {l}, l ≠ .other →
      (label = l ↔ GetsChecksFor (.of p text) l ∨ lower p.name.toList ∈ l.endings)) :
    (∀ l, label = l ↔ GetsChecksFor (.of p text) l) ↔ ¬ IsMereEnding p.name := by
  constructor
  · rintro hall ⟨l, hname⟩
    obtain ⟨word, heq, hending⟩ := Language.exists_isEnding hname
    have hl : l ≠ .other := by
      rintro rfl
      exact List.not_mem_nil hname
    have hgets := (getsChecksFor_iff hl).1 ((hall l).1 ((hlabel hl).2 (.inr hname)))
    rw [suffix_of, name_of, Path.suffixOf_eq_nil_of_lower_eq hending heq] at hgets
    rcases hgets with hmem | hmem
    · obtain ⟨word, hcons, -⟩ := Language.exists_isEnding hmem
      exact List.cons_ne_nil _ _ hcons.symm
    · exact (Language.isEnding_of_mem_names hmem).dot (heq ▸ List.mem_cons_self)
  · intro hname l
    have hknown {l : Language} (hl : l ≠ .other) : label = l ↔ GetsChecksFor (.of p text) l :=
      (hlabel hl).trans (or_iff_left fun hmem => hname ⟨l, hmem⟩)
    by_cases hl : l = .other
    · subst hl
      rw [getsChecksFor_other_iff]
      constructor
      · exact fun hother l hl hgets => hl (((hknown hl).2 hgets).symm.trans hother)
      · exact fun hnone => by_contra fun hne => hnone _ hne ((hknown hne).1 rfl)
    · exact hknown hl

/-- **A report names the language whose checks a file gets**, for every path whose last name is not
a mere ending, and for no other: a name such as `.py` has the label of its language, but gets the
checks for any text. -/
theorem label_names_checks_iff (s : String) (text : List Char) :
    (∀ l, Language.ofPath (Path.ofString s).toString = l ↔
      GetsChecksFor (.of (Path.ofString s) text) l) ↔ ¬ IsMereEnding (Path.ofString s).name :=
  forall_label_iff fun hl => ofPath_toString_iff (Path.plain_ofString s) text hl

end Checks

end CodeAudit
