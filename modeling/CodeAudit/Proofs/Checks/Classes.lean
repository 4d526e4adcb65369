import CodeAudit.Proofs.Checks.Blocks

/-!
# Classes and their methods

The classes of a file lie side by side: each begins with a declaration, opens at the first line from
there on that has an opening brace, and ends with the block of that line (`sideBySide_classes`). The
methods of a class are the blocks of methods among its own lines, and so they lie inside it and side
by side as well. No method belongs to two classes, and what is reported of a class is told from its
methods alone (`class_and_method_ranges_nest`).
-/

namespace CodeAudit.Checks.Java

open Pattern

variable {lines rest : List (List Char)} {line : List Char} {start stop index k j : Nat}

/-! ## The block of a class -/

/-- A line with an opening brace. -/
def HasOpening (lines : List (List Char)) (k : Nat) : Prop :=
  ∃ line, lines[k]? = some line ∧ openBrace ∈ line

/-- The first line with an opening brace, from an index on. -/
structure FirstOpening (lines : List (List Char)) (start k : Nat) : Prop where
  le : start ≤ k
  opening : HasOpening lines k
  none_before : ∀ j, start ≤ j → j < k → ¬ HasOpening lines j

/-- A line that declares a class whose block opens there or later. -/
def OpensClass (lines : List (List Char)) (k : Nat) : Prop :=
  (lines[k]?.bind className?).isSome = true ∧ ∃ j, k ≤ j ∧ HasOpening lines j

/-- **The last line of a class**: that of the block which is the first to open. -/
def ClassEndsAt (lines : List (List Char)) (start stop : Nat) : Prop :=
  ∃ k, FirstOpening lines start k ∧ EndsAt lines k stop

theorem FirstOpening.unique (h : FirstOpening lines start k) (h' : FirstOpening lines start j) :
    k = j := by
  have hnot := h.none_before j h'.le
  have hnot' := h'.none_before k h.le
  rcases Nat.lt_trichotomy k j with hlt | heq | hlt
  · exact absurd h.opening (hnot' hlt)
  · exact heq
  · exact absurd h'.opening (hnot hlt)

theorem ClassEndsAt.le (h : ClassEndsAt lines start stop) : start ≤ stop := by
  obtain ⟨k, hfirst, hends⟩ := h
  exact Nat.le_trans hfirst.le hends.le

theorem ClassEndsAt.unique {stop' : Nat} (h : ClassEndsAt lines start stop)
    (h' : ClassEndsAt lines start stop') : stop = stop' := by
  obtain ⟨k, hfirst, hends⟩ := h
  obtain ⟨j, hfirst', hends'⟩ := h'
  obtain rfl := hfirst.unique hfirst'
  exact hends.unique hends'

theorem linesBeforeOpen_eq : linesBeforeOpen lines = lines.findIdx opens := by
  induction lines with
  | nil => rfl
  | cons line rest ih =>
    rw [linesBeforeOpen, List.findIdx_cons, ih]
    cases opens line <;> rfl

/-- What is left of lines from an index on has their openings. -/
theorem hasOpening_add (h : lines.drop index = rest) :
    HasOpening lines (index + k) ↔ HasOpening rest k := by
  rw [HasOpening, HasOpening, ← h, List.getElem?_drop]

theorem hasOpening_iff : HasOpening lines k ↔ ∃ h : k < lines.length, opens lines[k] = true := by
  constructor
  · rintro ⟨line, hline, hopen⟩
    obtain ⟨hlt, rfl⟩ := List.getElem?_eq_some_iff.1 hline
    exact ⟨hlt, List.contains_iff_mem.2 hopen⟩
  · rintro ⟨hlt, hopens⟩
    exact ⟨lines[k], List.getElem?_eq_getElem hlt, List.contains_iff_mem.1 hopens⟩

theorem not_hasOpening_before (h : k < linesBeforeOpen lines) : ¬ HasOpening lines k := by
  rintro hopening
  obtain ⟨hlt, hopens⟩ := hasOpening_iff.1 hopening
  rw [linesBeforeOpen_eq] at h
  exact absurd hopens (by simpa using List.not_of_lt_findIdx h)

theorem hasOpening_first (h : linesBeforeOpen lines < lines.length) :
    HasOpening lines (linesBeforeOpen lines) := by
  refine hasOpening_iff.2 ⟨h, ?_⟩
  simp only [linesBeforeOpen_eq] at h ⊢
  exact List.findIdx_getElem

/-- The search for an opening finds the first one. -/
theorem firstOpening_linesBeforeOpen (h : lines.drop index = rest)
    (hlt : linesBeforeOpen rest < rest.length) :
    FirstOpening lines index (index + linesBeforeOpen rest) where
  le := Nat.le_add_right _ _
  opening := (hasOpening_add h).2 (hasOpening_first hlt)
  none_before := by
    intro j hle hlt hopening
    obtain ⟨k, rfl⟩ := Nat.exists_eq_add_of_le hle
    exact not_hasOpening_before (by omega) ((hasOpening_add h).1 hopening)

/-- Counting down to the line that closes and counting the lines of a block come to the same end,
where the last line of all ends what is never closed. -/
theorem min_linesBeforeClose (depth : Int) :
    min (linesBeforeClose depth (line :: rest)) rest.length =
      blockRest (depth + balance line) rest := by
  induction rest generalizing depth line with
  | nil => exact Nat.min_zero _
  | cons next rest ih =>
    rw [linesBeforeClose, blockRest]
    by_cases hdepth : depth + balance line ≤ 0
    · rw [if_pos hdepth, if_neg (Int.not_lt.2 hdepth), Nat.zero_min]
    · rw [if_neg hdepth, if_pos (Int.not_le.1 hdepth), List.length_cons, Nat.add_min_add_right, ih]

/-- **The end of a class** as it is counted: the lines before the opening, and those before the
close. -/
theorem classEndsAt_counted (h : lines.drop index = line :: rest)
    (hlt : linesBeforeOpen (line :: rest) < (line :: rest).length) :
    ClassEndsAt lines index (index + min (linesBeforeOpen (line :: rest) +
      linesBeforeClose 0 ((line :: rest).drop (linesBeforeOpen (line :: rest)))) rest.length) := by
  refine ⟨_, firstOpening_linesBeforeOpen h hlt, ?_⟩
  -- from here on only the line that opens the block and the lines behind it matter
  generalize linesBeforeOpen (line :: rest) = head at hlt ⊢
  rw [List.length_cons] at hlt
  obtain ⟨first, behind, hblock⟩ := List.exists_cons_of_ne_nil
    (mt List.drop_eq_nil_iff.1 (by rw [List.length_cons]; omega) : (line :: rest).drop head ≠ [])
  have hdrop : lines.drop (index + head) = first :: behind := by
    rw [← List.drop_drop, h, hblock]
  have hlength : rest.length = head + behind.length := by
    have hlengths := congrArg List.length hblock
    simp only [List.length_drop, List.length_cons] at hlengths
    omega
  rw [hblock, hlength, Nat.add_min_add_left, min_linesBeforeClose, Int.zero_add, ← Nat.add_assoc]
  exact endsAt_block hdrop

/-! ## The classes of a file -/

/-- The first and last line of a class. -/
def ClassRange.span (c : ClassRange) : Nat × Nat := (c.start, c.stop)

/-- Behind the last line nothing is declared. -/
theorem not_opensClass (h : lines.length ≤ k) : ¬ OpensClass lines k := by
  rintro ⟨-, j, hle, line, hline, -⟩
  have hlt : j < lines.length := (List.getElem?_eq_some_iff.1 hline).1
  omega

/-- **The search for classes finds them all**, side by side. -/
theorem sideBySide_classes (h : lines.drop index = rest) :
    SideBySide (OpensClass lines) (ClassEndsAt lines) index
      ((classRangesFrom index rest).map ClassRange.span) := by
  -- along the recursion of the search: a line is passed, or a class is, or no brace is left
  induction index, rest using classRangesFrom.induct with
  | case1 index =>
    rw [classRangesFrom]
    have hlast : lines.length ≤ index := List.drop_eq_nil_iff.1 h
    exact .nil fun k hk => not_opensClass (Nat.le_trans hlast hk)
  | case2 index line rest hnone ih =>
    have hnot : ¬ OpensClass lines index := by
      rintro ⟨hsome, -⟩
      rw [getElem?_of_drop h, Option.bind_some, hnone] at hsome
      exact Bool.noConfusion hsome
    rw [classRangesFrom]
    simp only [hnone]
    exact .skip hnot (ih (drop_succ_of_drop h))
  | case3 index line rest name hsome head block hempty =>
    have hnot : ∀ k, index ≤ k → ¬ OpensClass lines k := by
      rintro k hk ⟨-, j, hj, hopening⟩
      obtain ⟨i, rfl⟩ := Nat.exists_eq_add_of_le (Nat.le_trans hk hj)
      have hrest := (hasOpening_add h).1 hopening
      have hlt := (hasOpening_iff.1 hrest).1
      have hle : (line :: rest).length ≤ head :=
        List.drop_eq_nil_iff.1 (List.isEmpty_iff.1 hempty)
      exact not_hasOpening_before (Nat.lt_of_lt_of_le hlt hle) hrest
    rw [classRangesFrom]
    simp only [hsome]
    rw [if_pos hempty]
    exact .nil hnot
  | case4 index line rest name hsome head block hopen more ih =>
    have hlt : head < (line :: rest).length :=
      Nat.lt_of_not_le fun hle => hopen (List.isEmpty_iff.2 (List.drop_eq_nil_iff.2 hle))
    have hfirst := firstOpening_linesBeforeOpen h hlt
    have hends := classEndsAt_counted h hlt
    have hlength : lines.length = index + (rest.length + 1) := by
      have hlengths := congrArg List.length h
      rw [List.length_drop, List.length_cons] at hlengths
      omega
    rw [classRangesFrom]
    simp only [hsome]
    rw [if_neg hopen, List.map_cons]
    refine .cons ⟨?_, _, hfirst.le, hfirst.opening⟩ hends hends.le ?_
    · rw [getElem?_of_drop h, Option.bind_some, hsome]
      rfl
    · by_cases hmore : more ≤ rest.length
      · rw [Nat.min_eq_left hmore]
        refine ih ?_
        rw [← drop_succ_of_drop h, List.drop_drop, Nat.add_right_comm]
      · -- a block that is never closed reaches to the last line
        have hmin : min more rest.length = rest.length := by omega
        have hdone : classRangesFrom (index + more + 1) (rest.drop more) = [] := by
          rw [List.drop_eq_nil_of_le (by omega), classRangesFrom]
        show SideBySide _ _ (index + min more rest.length + 1)
          ((classRangesFrom (index + more + 1) (rest.drop more)).map ClassRange.span)
        rw [hdone, hmin]
        exact .nil fun k hk => not_opensClass (by omega)

/-- The classes of a file are the only ranges of their kind. -/
theorem sideBySide_iff_eq_classes {ranges : List (Nat × Nat)} :
    SideBySide (OpensClass lines) (ClassEndsAt lines) 0 ranges ↔
      ranges = (classRanges lines).map ClassRange.span :=
  SideBySide.iff_eq (fun _ _ h => h.le) (fun _ _ _ h h' => h.unique h') (sideBySide_classes rfl)

/-- A class is declared in its first line, which has the number that is reported. -/
theorem declared_of_mem {c : ClassRange} (hc : c ∈ classRangesFrom index rest)
    (h : lines.drop index = rest) :
    c.line = c.start + 1 ∧ lines[c.start]?.bind className? = some c.name := by
  induction index, rest using classRangesFrom.induct with
  | case1 index =>
    rw [classRangesFrom] at hc
    exact absurd hc List.not_mem_nil
  | case2 index line rest hnone ih =>
    rw [classRangesFrom] at hc
    simp only [hnone] at hc
    exact ih hc (drop_succ_of_drop h)
  | case3 index line rest name hsome head block hempty =>
    rw [classRangesFrom] at hc
    simp only [hsome] at hc
    rw [if_pos hempty] at hc
    exact absurd hc List.not_mem_nil
  | case4 index line rest name hsome head block hopen more ih =>
    rw [classRangesFrom] at hc
    simp only [hsome] at hc
    rw [if_neg hopen] at hc
    rcases List.mem_cons.1 hc with rfl | hc
    · refine ⟨rfl, ?_⟩
      rw [getElem?_of_drop h, Option.bind_some, hsome]
    · refine ih hc ?_
      rw [← drop_succ_of_drop h, List.drop_drop, Nat.add_right_comm]

/-! ## Methods in their classes -/

/-- **A class lies where it is said to lie**: its number and name are those of its first line, it
has a line with an opening brace, and its methods are the blocks of methods among its lines. -/
structure WellPlaced (lines : List (List Char)) (c : ClassRange) : Prop where
  line_eq : c.line = c.start + 1
  start_le : c.start ≤ c.stop
  stop_lt : c.stop < lines.length
  declared : lines[c.start]?.bind className? = some c.name
  opened : ∃ k, c.start ≤ k ∧ k ≤ c.stop ∧ HasOpening lines k
  methods : SideBySide (OpensBlock methodHead.search (lines.take (c.stop + 1)))
    (EndsAt (lines.take (c.stop + 1))) c.start (c.methods lines)
  methods_within : ∀ m ∈ c.methods lines, c.start ≤ m.1 ∧ m.1 ≤ m.2 ∧ m.2 ≤ c.stop

theorem sideBySide_methods (lines : List (List Char)) (c : ClassRange) :
    SideBySide (OpensBlock methodHead.search (lines.take (c.stop + 1)))
      (EndsAt (lines.take (c.stop + 1))) c.start (c.methods lines) :=
  sideBySide_spans rfl

theorem methods_within (c : ClassRange) {m : Nat × Nat} (hm : m ∈ c.methods lines) :
    c.start ≤ m.1 ∧ m.1 ≤ m.2 ∧ m.2 ≤ c.stop := by
  have hmethods := sideBySide_methods lines c
  have hends := hmethods.ends m hm
  have hlt := hends.lt
  rw [List.length_take] at hlt
  exact ⟨hmethods.from_index m hm, hends.le, by omega⟩

theorem wellPlaced_of_mem {c : ClassRange} (hc : c ∈ classRanges lines) : WellPlaced lines c := by
  have hspan : c.span ∈ (classRanges lines).map ClassRange.span := List.mem_map_of_mem hc
  have hends := (sideBySide_classes rfl).ends c.span hspan
  obtain ⟨hline, hname⟩ := declared_of_mem hc rfl
  obtain ⟨k, hfirst, hblock⟩ := hends
  exact {
    line_eq := hline
    start_le := Nat.le_trans hfirst.le hblock.le
    stop_lt := hblock.lt
    declared := hname
    opened := ⟨k, hfirst.le, hblock.le, hfirst.opening⟩
    methods := sideBySide_methods lines c
    methods_within := fun m hm => methods_within c hm }

/-- The methods of all classes lie side by side, so that none is a method of two classes. -/
theorem pairwise_methods :
    ((classRanges lines).flatMap (·.methods lines)).Pairwise fun a b => a.2 < b.1 := by
  have hclasses : (classRanges lines).Pairwise fun c d => c.stop < d.start :=
    List.pairwise_map.1 (sideBySide_classes rfl).increasing
  refine List.pairwise_flatMap.2 ⟨fun c _ => (sideBySide_methods lines c).increasing, ?_⟩
  -- a method of the one class ends with it at the latest, before the other class begins
  refine hclasses.imp fun {c d} hcd a ha b hb => ?_
  have hc := methods_within c ha
  have hd := methods_within d hb
  omega

/-! ## What is reported of a class -/

/-- What is reported of a class with more than twenty methods. -/
def manyMethods? (f : SourceFile) (c : ClassRange) (methods : List (Nat × Nat)) : Option Issue :=
  if 20 < methods.length then
    some (Catalogue.javaManyMethods.issue f.path c.line 1
      s!"Class '{String.ofList c.name}' declares {methods.length} methods; target at most 20.")
  else none

/-- What is reported of a class whose methods have little in common. -/
def lowCohesion? (f : SourceFile) (c : ClassRange) (methods : List (Nat × Nat)) : Option Issue :=
  (methodCohesion f.lines methods).bind fun score =>
    if score < leastCohesion then
      some (Catalogue.javaCohesion.issue f.path c.line 1
        (s!"Class '{String.ofList c.name}' methods share little common state "
          ++ s!"(cohesion score {Number.fixed 2 score})."))
    else none

section Reports

variable (f : SourceFile) (c : ClassRange) (methods : List (Nat × Nat))

theorem ruleId_manyMethods? {i : Issue} (h : i ∈ manyMethods? f c methods) :
    i.ruleId = Catalogue.javaManyMethods.id := by
  unfold manyMethods? at h
  split at h
  · rw [← Option.some.inj h]
    rfl
  · exact absurd h (by simp)

theorem ruleId_lowCohesion? {i : Issue} (h : i ∈ lowCohesion? f c methods) :
    i.ruleId = Catalogue.javaCohesion.id := by
  obtain ⟨score, -, hscore⟩ := Option.bind_eq_some_iff.1 h
  split at hscore
  · rw [← Option.some.inj hscore]
    rfl
  · exact absurd hscore (by simp)

/-- A class has one report of each kind at most. -/
theorem classIssues_eq :
    classIssues f c = (manyMethods? f c (c.methods f.lines)).toList ++
      (lowCohesion? f c (c.methods f.lines)).toList := by
  unfold classIssues manyMethods? lowCohesion?
  extract_lets methods name report
  congr 1
  · by_cases hmany : methods.length ≤ maxMethods
    · have hnot : ¬ 20 < (c.methods f.lines).length := Nat.not_lt.2 hmany
      rw [if_pos hmany, if_neg hnot]
      rfl
    · have hlt : 20 < (c.methods f.lines).length := Nat.lt_of_not_le hmany
      rw [if_neg hmany, if_pos hlt]
      simp only [report, String.append_assoc]
      rfl
  · cases methodCohesion f.lines methods with
    | none => rfl
    | some score =>
      rw [Option.bind_some]
      by_cases hscore : score < leastCohesion
      · simp only [if_pos hscore]
        rfl
      · simp only [if_neg hscore]
        rfl

theorem filter_classIssues (id : String) :
    (classIssues f c).filter (·.ruleId == id) =
      (if Catalogue.javaManyMethods.id = id then (manyMethods? f c (c.methods f.lines)).toList
        else []) ++
      (if Catalogue.javaCohesion.id = id then (lowCohesion? f c (c.methods f.lines)).toList
        else []) := by
  rw [classIssues_eq, List.filter_append,
    filter_report (fun _ => ruleId_manyMethods? f c (c.methods f.lines)),
    filter_report (fun _ => ruleId_lowCohesion? f c (c.methods f.lines))]

end Reports

/-- What is reported by a rule about classes is reported of the classes. -/
theorem filter_classes (f : SourceFile) {id : String}
    (hid : id ∈ [Catalogue.javaManyMethods.id, Catalogue.javaCohesion.id]) :
    (check f).filter (·.ruleId == id) =
      (classRanges f.lines).flatMap fun c => (classIssues f c).filter (·.ruleId == id) := by
  rw [← List.filter_flatMap]
  rcases List.mem_cons.1 hid with rfl | hid
  · exact parts.filter_eq Catalogue.javaManyMethods rfl f
  · obtain rfl := List.mem_singleton.1 hid
    exact parts.filter_eq Catalogue.javaCohesion rfl f

/-- **Classes and methods nest.** The classes of a file lie side by side and none is left out; each
lies around its methods, which lie side by side as well; and the methods of all classes are one such
sequence, so that none is counted for two classes. Every report about a class is told from its own
methods. -/
theorem class_and_method_ranges_nest (f : SourceFile) :
    (∀ ranges, SideBySide (OpensClass f.lines) (ClassEndsAt f.lines) 0 ranges ↔
      ranges = (classRanges f.lines).map ClassRange.span) ∧
    (∀ c ∈ classRanges f.lines, WellPlaced f.lines c) ∧
    ((classRanges f.lines).flatMap (·.methods f.lines)).Pairwise (fun a b => a.2 < b.1) ∧
    (check f).filter (·.ruleId == Catalogue.javaManyMethods.id) =
      (classRanges f.lines).filterMap (fun c => manyMethods? f c (c.methods f.lines)) ∧
    (check f).filter (·.ruleId == Catalogue.javaCohesion.id) =
      (classRanges f.lines).filterMap (fun c => lowCohesion? f c (c.methods f.lines)) := by
  refine ⟨fun _ => sideBySide_iff_eq_classes, fun c hc => wellPlaced_of_mem hc, pairwise_methods,
    ?_, ?_⟩
  · rw [filter_classes f (by decide), List.filterMap_eq_flatMap_toList]
    refine List.flatMap_congr fun c _ => ?_
    rw [filter_classIssues, if_pos rfl, if_neg (by decide), List.append_nil]
  · rw [filter_classes f (by decide), List.filterMap_eq_flatMap_toList]
    refine List.flatMap_congr fun c _ => ?_
    rw [filter_classIssues, if_neg (by decide), if_pos rfl, List.nil_append]

/-- Two classes: one that opens below its declaration, and one that is never closed. -/
def twoClasses : SourceFile :=
  .of (Path.ofString "A.java")
    "class A\n\x7b int f() \x7b\n\x7d \x7d\nclass B \x7b\n int g() \x7b\n\x7d\n int h() \x7b".toList

/-- The second class of `twoClasses`. -/
def openClass : ClassRange := ⟨"B".toList, 4, 3, 6⟩

theorem twoClasses_nest : openClass ∈ classRanges twoClasses.lines ∧
    openClass.methods twoClasses.lines = [(4, 5), (6, 6)] ∧ WellPlaced twoClasses.lines openClass :=
  have h : openClass ∈ classRanges twoClasses.lines := by decide +kernel
  ⟨h, by decide +kernel, (class_and_method_ranges_nest twoClasses).2.1 _ h⟩

end CodeAudit.Checks.Java
