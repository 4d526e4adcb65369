import CodeAudit.Checks.Analyser
import CodeAudit.Proofs.Checks.Repetitions
import CodeAudit.Proofs.Pattern.Extent

/-!
# The places of issues

Every check that looks at the lines of a file reports places that there are: a line of the file and
a column of that line, or the start of a file or line that may be empty (`text_issues_in_lines`).
-/

namespace CodeAudit.Checks

open Pattern

/-- **An issue is at a place of some lines.** An empty file counts as one line, and an empty line
as one column. -/
def InLines (lines : List (List Char)) (i : Issue) : Prop :=
  ∃ line column : Nat, i.line = line ∧ i.column = column ∧ 1 ≤ line ∧ line ≤ max 1 lines.length ∧
    1 ≤ column ∧ column ≤ max 1 (lines[line - 1]?.getD []).length

/-- All issues of a list are. -/
def AllInLines (lines : List (List Char)) (issues : List Issue) : Prop :=
  ∀ i ∈ issues, InLines lines i

variable {lines : List (List Char)} {line : List Char} {r : RuleInfo} {path message : String}
  {k n column : Nat}

/-- The start of a file is such a place. -/
theorem inLines_start : InLines lines (r.issue path 1 1 message) :=
  ⟨1, 1, rfl, rfl, Nat.le_refl _, Nat.le_max_left _ _, Nat.le_refl _, Nat.le_max_left _ _⟩

/-- So is a column of a line, where its first column always counts. -/
theorem inLines_at (h : lines[k]? = some line) (hpos : 1 ≤ column)
    (hcolumn : column ≤ max 1 line.length) :
    InLines lines (r.issue path (k + 1 : Nat) column message) := by
  have hk : k < lines.length := (List.getElem?_eq_some_iff.1 h).1
  refine ⟨k + 1, column, rfl, rfl, Nat.le_add_left 1 k, by omega, hpos, ?_⟩
  rw [Nat.add_sub_cancel, h]
  exact hcolumn

/-- The first column of any line that a file has. -/
theorem inLines_firstColumn (hpos : 1 ≤ n) (hle : n ≤ lines.length) :
    InLines lines (r.issue path n 1 message) :=
  ⟨n, 1, rfl, rfl, hpos, by omega, Nat.le_refl _, Nat.le_max_left _ _⟩

namespace AllInLines

variable {α : Type} {a b : List Issue}

theorem nil : AllInLines lines [] := fun _ h => absurd h List.not_mem_nil

theorem single {i : Issue} (h : InLines lines i) : AllInLines lines [i] :=
  fun _ hj => List.mem_singleton.1 hj ▸ h

theorem append (ha : AllInLines lines a) (hb : AllInLines lines b) : AllInLines lines (a ++ b) :=
  fun i hi => (List.mem_append.1 hi).elim (ha i) (hb i)

theorem cond {c : Prop} [Decidable c] (ha : c → AllInLines lines a)
    (hb : ¬ c → AllInLines lines b) : AllInLines lines (if c then a else b) := by
  split
  next hc => exact ha hc
  next hc => exact hb hc

theorem flatMap {xs : List α} {g : α → List Issue} (h : ∀ x ∈ xs, AllInLines lines (g x)) :
    AllInLines lines (xs.flatMap g) := by
  intro i hi
  obtain ⟨x, hx, hi⟩ := List.mem_flatMap.1 hi
  exact h x hx i hi

theorem filterMap {xs : List α} {g : α → Option Issue}
    (h : ∀ x ∈ xs, ∀ i, g x = some i → InLines lines i) : AllInLines lines (xs.filterMap g) := by
  intro i hi
  obtain ⟨x, hx, hi⟩ := List.mem_filterMap.1 hi
  exact h x hx i hi

end AllInLines

variable {f : SourceFile}

/-- A numbered line is the line at its number. -/
theorem getElem?_of_mem_numbered (h : (line, n) ∈ f.numbered) :
    ∃ k, n = k + 1 ∧ f.lines[k]? = some line := by
  obtain ⟨hle, hline⟩ := List.mem_zipIdx_iff_le_and_getElem?_sub.1 h
  exact ⟨n - 1, by omega, hline⟩

/-- A column of a numbered line. -/
theorem inLines_numbered (h : (line, n) ∈ f.numbered) (hpos : 1 ≤ column)
    (hcolumn : column ≤ max 1 line.length) :
    InLines f.lines (r.issue path n column message) := by
  obtain ⟨k, rfl, hline⟩ := getElem?_of_mem_numbered h
  exact inLines_at hline hpos hcolumn

/-- Checks that report whole lines. -/
theorem allInLines_wholeLines (test : List Char → Bool) :
    AllInLines f.lines (f.numbered.filterMap fun (line, n) =>
      if test line then some (r.issue path n 1 message) else none) := by
  refine .filterMap fun ⟨line, n⟩ hline i hi => ?_
  dsimp only at hi
  split at hi
  · obtain rfl := Option.some.inj hi
    exact inLines_numbered hline (Nat.le_refl _) (Nat.le_max_left _ _)
  · exact absurd hi (by simp)

/-! ## Checks of any source -/

theorem inLines_workItems : AllInLines f.lines (workItems f) := by
  refine .filterMap fun ⟨line, n⟩ hline i hi => ?_
  obtain ⟨m, hm, rfl⟩ := Option.map_eq_some_iff.1 hi
  have hstart := start_lt_of_search (i := 0) (by decide) (by decide) hm
  exact inLines_numbered hline (Nat.le_add_left 1 _) (by omega)

theorem inLines_plainAddresses : AllInLines f.lines (AnySource.plainAddresses f) := by
  refine .flatMap fun ⟨line, n⟩ hline => .filterMap fun m hm i hi => ?_
  split at hi
  · exact absurd hi (by simp)
  · obtain rfl := Option.some.inj hi
    have hstart := start_lt_of_mem_findAll (i := 0) (by decide) (by decide) hm
    exact inLines_numbered hline (Nat.le_add_left 1 _) (by omega)

theorem inLines_longLines : AllInLines f.lines (AnySource.longLines f) := by
  refine .filterMap fun ⟨line, n⟩ hline i hi => ?_
  dsimp only at hi
  split at hi
  · exact absurd hi (by simp)
  · obtain rfl := Option.some.inj hi
    exact inLines_numbered hline (Nat.le_add_left 1 _) (by omega)

theorem inLines_trailingBlanks : AllInLines f.lines (AnySource.trailingBlanks f) := by
  refine .filterMap fun ⟨line, n⟩ hline i hi => ?_
  dsimp only at hi
  split at hi
  · exact absurd hi (by simp)
  next hne =>
    obtain rfl := Option.some.inj hi
    have hle : (Text.dropEndWhile (fun c => c == ' ' || c == '\t') line).length ≤ line.length := by
      rw [Text.dropEndWhile, List.length_reverse, ← @List.length_reverse _ line]
      exact (List.dropWhile_sublist _).length_le
    exact inLines_numbered hline (Nat.le_add_left 1 _) (by omega)

/-! ### Repeated blocks -/

theorem inLines_repetitions : AllInLines f.lines (Repetition.issues f) := by
  intro i hi
  obtain ⟨⟨n, first⟩, hmem, rfl⟩ := List.mem_map.1 hi
  obtain ⟨⟨⟨⟨hpos, hwhole⟩, -⟩, -⟩, -⟩ := Repetition.duplicate_of_mem_repetitions hmem
  exact inLines_firstColumn hpos (by omega)

/-! ### Container recipes and workloads -/

theorem mem_instructions (h : (line, n) ∈ Container.instructions f) :
    1 ≤ n ∧ n ≤ f.lines.length := by
  obtain ⟨⟨line', n'⟩, hline, heq⟩ := List.mem_filterMap.1 h
  dsimp only at heq
  split at heq
  · exact absurd heq (by simp)
  · obtain ⟨-, rfl⟩ := Prod.mk.inj (Option.some.inj heq)
    obtain ⟨k, rfl, hk⟩ := getElem?_of_mem_numbered hline
    have hlt := (List.getElem?_eq_some_iff.1 hk).1
    omega

theorem inLines_recipeIssues : AllInLines f.lines (Container.recipeIssues f) := by
  refine .cond (fun _ => .nil) fun _ => .append (.flatMap fun ⟨line, n⟩ hline => ?_)
    (.cond (fun _ => .nil) fun _ => .single inLines_start)
  obtain ⟨hpos, hle⟩ := mem_instructions hline
  have hreport {holds : Bool} {r : RuleInfo} {message : String} :
      AllInLines f.lines (if holds then [r.issue f.path n 1 message] else []) :=
    .cond (fun _ => .single (inLines_firstColumn hpos hle)) fun _ => .nil
  exact .append (.append hreport hreport) hreport

theorem inLines_manifestIssues : AllInLines f.lines (Container.manifestIssues f) := by
  refine .cond (fun _ => .nil) fun _ => .flatMap fun ⟨line, n⟩ hline =>
    .filterMap fun s _ i hi => ?_
  obtain ⟨hpos, hle⟩ := mem_instructions hline
  dsimp only at hi
  split at hi
  · obtain rfl := Option.some.inj hi
    exact inLines_firstColumn hpos hle
  · exact absurd hi (by simp)

theorem inLines_anySource : AllInLines f.lines (AnySource.check f) := by
  have hsecrets : AllInLines f.lines (secrets ":=" f) := allInLines_wholeLines _
  have hmarkers : AllInLines f.lines (AnySource.mergeMarkers f) :=
    allInLines_wholeLines fun line => ["<<<<<<< ", "======= ", ">>>>>>> "].any (startsWith line ·)
  have hevals : AllInLines f.lines (AnySource.dynamicEvals f) :=
    .cond (fun _ => .nil) fun _ => allInLines_wholeLines _
  have hkeys : AllInLines f.lines (AnySource.privateKeys f) := allInLines_wholeLines _
  have hlarge : AllInLines f.lines (AnySource.largeFile f) :=
    .cond (fun _ => .nil) fun _ => .single inLines_start
  exact (((((((((((inLines_workItems.append hsecrets).append hmarkers).append hevals).append
    hkeys).append inLines_plainAddresses).append inLines_recipeIssues).append
    inLines_manifestIssues).append inLines_longLines).append inLines_trailingBlanks).append
    hlarge).append inLines_repetitions)

/-! ## Languages with braces -/

/-- **A declaration that is met** is at its index among the lines. -/
theorem mem_visits {α : Type} {declaration : List Char → Option α} {index : Nat} {v : Visit α}
    (h : v ∈ visits declaration index lines) :
    ∃ k, v.index = index + k ∧ lines[k]? = some v.line ∧ declaration v.line = some v.found := by
  induction index, lines using visits.induct declaration with
  | case1 =>
    rw [visits] at h
    exact absurd h List.not_mem_nil
  | case2 index line rest hnone ih =>
    rw [visits] at h
    simp only [hnone] at h
    obtain ⟨k, hindex, hline, hfound⟩ := ih h
    exact ⟨k + 1, by omega, hline, hfound⟩
  | case3 index line rest found hsome hopens more ih =>
    rw [visits] at h
    simp only [hsome, hopens, if_true] at h
    rcases List.mem_cons.1 h with rfl | h
    · exact ⟨0, rfl, rfl, hsome⟩
    · obtain ⟨k, hindex, hline, hfound⟩ := ih h
      rw [List.getElem?_drop] at hline
      exact ⟨more + k + 1, by omega, hline, hfound⟩
  | case4 index line rest found hsome hopens ih =>
    rw [visits] at h
    simp only [hsome, hopens] at h
    rcases List.mem_cons.1 h with rfl | h
    · exact ⟨0, rfl, rfl, hsome⟩
    · obtain ⟨k, hindex, hline, hfound⟩ := ih h
      exact ⟨k + 1, by omega, hline, hfound⟩

/-- What a declaration keeps under a number starts in its line. -/
def Names (i : Nat) (declaration : List Char → Option Found) : Prop :=
  ∀ line m, declaration line = some m → m.column i ≤ line.length

variable {i : Nat} {declaration : List Char → Option Found} {m : Found}

theorem names_search {pattern : Pattern} (htakes : pattern.takes = true)
    (hkeeps : pattern.keepsSome i = true) : Names i pattern.search :=
  fun _ _ hm => column_le_of_search htakes hkeeps hm

/-- The place of a name. -/
theorem inLines_name (hnames : Names i declaration) (hm : declaration line = some m)
    (hline : lines[k]? = some line) :
    InLines lines (r.issue path (k + 1 : Nat) (m.column i) message) :=
  inLines_at hline (Nat.le_add_left 1 _)
    (Nat.le_trans (hnames line m hm) (Nat.le_max_right _ _))

theorem inLines_longFunctions (hnames : Names 1 declaration) :
    AllInLines f.lines (longFunctions r declaration f) := by
  refine .filterMap fun v hv i hi => ?_
  obtain ⟨length, -, hi⟩ := Option.bind_eq_some_iff.1 hi
  split at hi
  · exact absurd hi (by simp)
  · obtain rfl := Option.some.inj hi
    obtain ⟨k, hindex, hline, hfound⟩ := mem_visits hv
    rw [Nat.zero_add] at hindex
    exact inLines_name hnames hfound (hindex ▸ hline)

theorem inLines_badNames {pattern : Pattern} {accepts : List Char → Bool}
    (hnames : Names i pattern.search) :
    AllInLines f.lines (badNames r pattern i accepts message f) := by
  refine .filterMap fun ⟨line, n⟩ hline i hi => ?_
  obtain ⟨k, rfl, hat⟩ := getElem?_of_mem_numbered hline
  obtain ⟨m, hm, hi⟩ := Option.bind_eq_some_iff.1 hi
  split at hi
  · exact absurd hi (by simp)
  · obtain rfl := Option.some.inj hi
    exact inLines_name hnames hm hat

theorem inLines_deepBlocks : AllInLines f.lines (deepBlocks r f) :=
  .cond (fun _ => .nil) fun _ => .single inLines_start

theorem inLines_codeLines (test : List Char → Bool) :
    AllInLines f.lines (codeLines f r message test) :=
  allInLines_wholeLines fun line => !(codeOf line).isEmpty && test (codeOf line)

theorem inLines_tooManyParameters {count : Nat}
    (h : ∀ message, InLines lines (r.issue path n column message)) :
    AllInLines lines (tooManyParameters r path n column count) :=
  .cond (fun _ => .nil) fun _ => .single (h _)

/-! ### Go -/

theorem names_goFunction : Names 1 Go.functionHead.search := names_search (by decide) (by decide)

theorem inLines_goFunctions : AllInLines f.lines (Go.functionIssues f) := by
  refine .flatMap fun ⟨line, n⟩ hline => ?_
  obtain ⟨k, rfl, hat⟩ := getElem?_of_mem_numbered hline
  dsimp only
  split
  · exact .nil
  next m hm =>
    exact .append (.cond (fun _ => .single (inLines_name names_goFunction hm hat)) fun _ => .nil)
      (inLines_tooManyParameters fun _ => inLines_name names_goFunction hm hat)

theorem inLines_go : AllInLines f.lines (Go.check f) := by
  have himports : AllInLines f.lines (Go.importIssues f) :=
    .cond (fun _ => .nil) fun _ => .single inLines_start
  exact ((((((inLines_anySource.append
    (inLines_badNames (names_search (by decide) (by decide)))).append inLines_goFunctions).append
    (inLines_longFunctions names_goFunction)).append inLines_deepBlocks).append himports).append
    (inLines_codeLines _)).append (inLines_codeLines _)

/-! ### Kotlin -/

theorem names_kotlinFunction : Names 1 Kotlin.functionHead.search :=
  names_search (by decide) (by decide)

theorem inLines_kotlinFunctions : AllInLines f.lines (Kotlin.functionIssues f) := by
  refine .flatMap fun ⟨line, n⟩ hline => ?_
  obtain ⟨k, rfl, hat⟩ := getElem?_of_mem_numbered hline
  dsimp only
  split
  · exact .nil
  next m hm =>
    exact .append
      (.cond (fun _ => .nil) fun _ => .single (inLines_name names_kotlinFunction hm hat))
      (inLines_tooManyParameters fun _ => inLines_name names_kotlinFunction hm hat)

theorem inLines_kotlin : AllInLines f.lines (Kotlin.check f) :=
  (((((inLines_anySource.append
    (inLines_badNames (names_search (by decide) (by decide)))).append
    (inLines_badNames (names_search (by decide) (by decide)))).append
    inLines_kotlinFunctions).append (inLines_longFunctions names_kotlinFunction)).append
    inLines_deepBlocks).append (inLines_codeLines _)

/-! ### Java -/

theorem names_javaType : Names 2 Java.typeHead.search := names_search (by decide) (by decide)

theorem names_javaMethod : Names 1 Java.methodHead.search := names_search (by decide) (by decide)

theorem inLines_javaFileNames : AllInLines f.lines (Java.fileNames f) := by
  unfold Java.fileNames
  dsimp only
  split
  · exact .nil
  next m n hmain =>
    obtain ⟨⟨line, n'⟩, hline, hfound⟩ := List.exists_of_findSome?_eq_some hmain
    obtain ⟨m', hm, hi⟩ := Option.bind_eq_some_iff.1 hfound
    split at hi
    · obtain ⟨rfl, rfl⟩ := Prod.mk.inj (Option.some.inj hi)
      obtain ⟨k, rfl, hat⟩ := getElem?_of_mem_numbered hline
      exact .cond (fun _ => .nil) fun _ => .single (inLines_name names_javaType hm hat)
    · exact absurd hi (by simp)

theorem inLines_javaMethods :
    AllInLines f.lines
      ((visits Java.methodHead.search 0 f.lines).flatMap (Java.methodIssues f)) := by
  refine .flatMap fun v hv => ?_
  obtain ⟨k, hindex, hline, hfound⟩ := mem_visits hv
  rw [Nat.zero_add] at hindex
  rw [← hindex] at hline
  refine .append
    (.cond (fun _ => .nil) fun _ => .single (inLines_name names_javaMethod hfound hline)) ?_
  split
  · exact .cond (fun _ => .nil) fun _ => .single (inLines_name names_javaMethod hfound hline)
  · exact .nil

/-- A class starts at a line that there is. -/
theorem mem_classRangesFrom {index : Nat} {c : Java.ClassRange}
    (h : c ∈ Java.classRangesFrom index lines) : 1 ≤ c.line ∧ c.line ≤ index + lines.length := by
  induction index, lines using Java.classRangesFrom.induct with
  | case1 =>
    rw [Java.classRangesFrom] at h
    exact absurd h List.not_mem_nil
  | case2 index line rest hnone ih =>
    rw [Java.classRangesFrom] at h
    simp only [hnone] at h
    obtain ⟨hpos, hle⟩ := ih h
    rw [List.length_cons]
    omega
  | case3 index line rest name hsome head block hempty =>
    rw [Java.classRangesFrom] at h
    simp only [hsome] at h
    rw [if_pos hempty] at h
    exact absurd h List.not_mem_nil
  | case4 index line rest name hsome head block hopen more ih =>
    rw [Java.classRangesFrom] at h
    simp only [hsome] at h
    rw [if_neg hopen] at h
    rcases List.mem_cons.1 h with rfl | h
    · show 1 ≤ index + 1 ∧ index + 1 ≤ index + (line :: rest).length
      rw [List.length_cons]
      omega
    · obtain ⟨hpos, hle⟩ := ih h
      have hmore : more < rest.length := by
        refine Nat.lt_of_not_le fun hle => ?_
        rw [List.drop_eq_nil_of_le hle, Java.classRangesFrom] at h
        exact absurd h List.not_mem_nil
      rw [List.length_drop] at hle
      rw [List.length_cons]
      omega

theorem inLines_javaClasses :
    AllInLines f.lines ((Java.classRanges f.lines).flatMap (Java.classIssues f)) := by
  refine .flatMap fun c hc => ?_
  obtain ⟨hpos, hle⟩ := mem_classRangesFrom hc
  rw [Nat.zero_add] at hle
  have hreport {r : RuleInfo} {message : String} :
      AllInLines f.lines [r.issue f.path c.line 1 message] :=
    .single (inLines_firstColumn hpos hle)
  refine .append (.cond (fun _ => .nil) fun _ => hreport) ?_
  split
  · exact .cond (fun _ => hreport) fun _ => .nil
  · exact .nil

theorem inLines_java : AllInLines f.lines (Java.check f) := by
  have himports : AllInLines f.lines (Java.importIssues f) :=
    .cond (fun _ => .nil) fun _ => .single inLines_start
  exact (((((((((inLines_anySource.append
    (inLines_badNames (names_search (by decide) (by decide)))).append
    (inLines_badNames names_javaType)).append
    inLines_javaFileNames).append (inLines_badNames names_javaMethod)).append
    (inLines_badNames (names_search (by decide) (by decide)))).append
    inLines_javaMethods).append inLines_deepBlocks).append (inLines_codeLines _)).append
    himports).append inLines_javaClasses

/-! ### JavaScript -/

theorem names_scriptFunction : Names 1 JavaScript.functionHead.search :=
  names_search (by decide) (by decide)

theorem names_scriptArrow : Names 1 JavaScript.arrowHead.search :=
  names_search (by decide) (by decide)

theorem names_scriptDeclaration : Names 1 JavaScript.declaration := by
  intro line m hm
  rcases eq_some_of_orElse hm with hm | hm
  · exact names_scriptFunction line m hm
  · exact names_scriptArrow line m hm

theorem inLines_badComponent (hnames : Names 1 declaration) (hm : declaration line = some m)
    (hline : f.lines[k]? = some line) :
    AllInLines f.lines (JavaScript.badComponent f (k + 1) m) :=
  .cond (fun _ => .nil) fun _ => .single (inLines_name hnames hm hline)

theorem inLines_declaration {following : List (List Char)} {pattern : Pattern}
    (hnames : Names 1 pattern.search) (hm : pattern.search line = some m)
    (hline : f.lines[k]? = some line) :
    AllInLines f.lines (JavaScript.declarationIssues f line following (k + 1) m) :=
  .append (.cond (fun _ => inLines_badComponent hnames hm hline) fun _ =>
    .cond (fun _ => .nil) fun _ => .single (inLines_name hnames hm hline))
    (inLines_tooManyParameters fun _ => inLines_name hnames hm hline)

theorem inLines_scriptLine {following : List (List Char)} (hline : f.lines[k]? = some line) :
    AllInLines f.lines (JavaScript.lineIssues f line following (k + 1)) := by
  refine .append (.append ?_ ?_) ?_
  · dsimp only
    split
    next m hm => exact inLines_declaration names_scriptFunction hm hline
    next => exact .nil
  · dsimp only
    split
    next m hm => exact inLines_declaration names_scriptArrow hm hline
    next => exact .nil
  · split
    next m hm => exact inLines_badComponent (names_search (by decide) (by decide)) hm hline
    next => exact .nil

theorem inLines_scriptNames {rest : List (List Char)} (h : f.lines.drop n = rest) :
    AllInLines f.lines (JavaScript.namingIssuesFrom f (n + 1) rest) := by
  induction rest generalizing n with
  | nil => exact .nil
  | cons line rest ih =>
    have hline : f.lines[n]? = some line := by
      rw [← List.head?_drop, h, List.head?_cons]
    have hrest : f.lines.drop (n + 1) = rest := by
      rw [← List.tail_drop, h, List.tail_cons]
    exact .append (inLines_scriptLine hline) (ih hrest)

/-- Commands are run in lines that there are. -/
theorem mem_commandLines {b : JavaScript.Bound} (h : k ∈ JavaScript.commandLines b n lines) :
    n ≤ k ∧ k < n + lines.length := by
  induction lines generalizing b n with
  | nil => exact absurd h List.not_mem_nil
  | cons line lines ih =>
    have hrest : ∀ {b}, k ∈ JavaScript.commandLines b (n + 1) lines →
        n ≤ k ∧ k < n + (line :: lines).length := by
      intro b hrest
      have hbounds := ih hrest
      rw [List.length_cons]
      omega
    simp only [JavaScript.commandLines] at h
    split at h
    · exact hrest h
    · split at h
      · rcases List.mem_cons.1 h with rfl | h
        · rw [List.length_cons]
          omega
        · exact hrest h
      · exact hrest h

theorem inLines_javaScript : AllInLines f.lines (JavaScript.check f) := by
  have hcommands : AllInLines f.lines (JavaScript.commandIssues f) := by
    intro i hi
    obtain ⟨n, hn, rfl⟩ := List.mem_map.1 hi
    obtain ⟨hpos, hlt⟩ := mem_commandLines hn
    exact inLines_firstColumn hpos (by omega)
  exact (((inLines_anySource.append (inLines_scriptNames rfl)).append
    (inLines_longFunctions names_scriptDeclaration)).append inLines_deepBlocks).append hcommands

/-! ## All of them -/

/-- **The issues of every check but those for Python are at places of the text**, whatever the text
and the name of its file. -/
theorem text_issues_in_lines (a : Analyser) (ha : a ≠ .python) (p : Path) (text : List Char) :
    ∀ i ∈ a.check (SourceFile.of p text), InLines (Text.splitLines text) i := by
  cases a with
  | python => exact absurd rfl ha
  | java => exact inLines_java
  | kotlin => exact inLines_kotlin
  | javaScript => exact inLines_javaScript
  | go => exact inLines_go
  | anySource => exact inLines_anySource

/-- A marker at the end of a line is at the place where it starts. -/
theorem text_issues_in_lines_todo :
    Analyser.anySource ≠ .python ∧
      workItems (.of ⟨.relative, ["a.txt"]⟩ "#\n# TODO".toList) =
        [Catalogue.workItem.issue "a.txt" 2 3
          "Found TODO/FIXME marker. Track and resolve before release."] ∧
      ∀ i ∈ workItems (.of ⟨.relative, ["a.txt"]⟩ "#\n# TODO".toList),
        InLines ["#".toList, "# TODO".toList] i := by
  refine ⟨by decide, by decide, fun i hi => ?_⟩
  refine text_issues_in_lines .anySource (by decide) ⟨.relative, ["a.txt"]⟩ "#\n# TODO".toList i ?_
  simp only [Analyser.check, AnySource.check, List.append_assoc]
  exact List.mem_append_left _ hi

end CodeAudit.Checks
