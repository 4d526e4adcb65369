import CodeAudit.Proofs.Checks.Languages
import CodeAudit.Proofs.Checks.Positions
import Mathlib.Data.List.Sort

/-!
# Blocks and their lengths

A scan for declarations goes over the lines from first to last and passes over each block that it
finds. What it has found from a line on is told by `SideBySide`: ranges in increasing order, none
missing and none in another. There is one such list of ranges (`SideBySide.unique`), and the scan
for the blocks of declarations finds it (`sideBySide_spans`): a block ends at the first line at
which as many braces are closed as opened. The functions that are reported as too long are exactly
those whose blocks have more than sixty lines (`block_lengths_measured_exactly`).
-/

namespace CodeAudit.Checks

open Pattern

/-! ## Ranges side by side -/

/-- **The ranges that a scan finds from an index on.** They lie side by side in increasing order;
each begins where a range may begin and ends where its start says; and what may begin a range at the
index or behind it lies in one of them. -/
structure SideBySide (Begins : Nat → Prop) (Ends : Nat → Nat → Prop) (index : Nat)
    (ranges : List (Nat × Nat)) : Prop where
  increasing : ranges.Pairwise fun a b => a.2 < b.1
  from_index : ∀ r ∈ ranges, index ≤ r.1
  begins : ∀ r ∈ ranges, Begins r.1
  ends : ∀ r ∈ ranges, Ends r.1 r.2
  covers : ∀ k, index ≤ k → Begins k → ∃ r ∈ ranges, r.1 ≤ k ∧ k ≤ r.2

namespace SideBySide

variable {Begins : Nat → Prop} {Ends : Nat → Nat → Prop} {index stop : Nat}
  {ranges others : List (Nat × Nat)}

theorem nil (h : ∀ k, index ≤ k → ¬ Begins k) : SideBySide Begins Ends index [] where
  increasing := .nil
  from_index := by simp
  begins := by simp
  ends := by simp
  covers := fun k hk hbegins => absurd hbegins (h k hk)

/-- A scan that finds nothing at its index goes on behind it. -/
theorem skip (hnot : ¬ Begins index) (h : SideBySide Begins Ends (index + 1) ranges) :
    SideBySide Begins Ends index ranges where
  increasing := h.increasing
  from_index := fun r hr => Nat.le_of_succ_le (h.from_index r hr)
  begins := h.begins
  ends := h.ends
  covers := by
    intro k hk hbegins
    have hne : k ≠ index := fun heq => hnot (heq ▸ hbegins)
    exact h.covers k (by omega) hbegins

/-- A scan that finds a range at its index goes on behind the range. -/
theorem cons (hbegins : Begins index) (hends : Ends index stop) (hle : index ≤ stop)
    (h : SideBySide Begins Ends (stop + 1) ranges) :
    SideBySide Begins Ends index ((index, stop) :: ranges) where
  increasing := List.pairwise_cons.2 ⟨h.from_index, h.increasing⟩
  from_index := by
    refine List.forall_mem_cons.2 ⟨Nat.le_refl _, fun r hr => ?_⟩
    have hbehind := h.from_index r hr
    omega
  begins := List.forall_mem_cons.2 ⟨hbegins, h.begins⟩
  ends := List.forall_mem_cons.2 ⟨hends, h.ends⟩
  covers := by
    intro k hk hk'
    rcases Nat.lt_or_ge stop k with hlt | hge
    · obtain ⟨r, hr, hin⟩ := h.covers k hlt hk'
      exact ⟨r, List.mem_cons_of_mem _ hr, hin⟩
    · exact ⟨(index, stop), List.mem_cons_self, hk, hge⟩

/-- Different ranges of a scan have no index in common. -/
theorem disjoint (h : SideBySide Begins Ends index ranges) {r r' : Nat × Nat} (hr : r ∈ ranges)
    (hr' : r' ∈ ranges) (hne : r ≠ r') : r.2 < r'.1 ∨ r'.2 < r.1 := by
  have : Std.Symm fun a b : Nat × Nat => a.2 < b.1 ∨ b.2 < a.1 := ⟨fun _ _ => Or.symm⟩
  exact (h.increasing.imp (S := fun a b => a.2 < b.1 ∨ b.2 < a.1) .inl).forall hr hr' hne

section

variable (hle : ∀ a b, Ends a b → a ≤ b) (hunique : ∀ a b c, Ends a b → Ends a c → b = c)
include hle hunique

/-- Two scans that agree on what begins before a range agree on the range. -/
theorem mem_of_mem (h : SideBySide Begins Ends index ranges)
    (h' : SideBySide Begins Ends index others) {r : Nat × Nat} (hr : r ∈ ranges)
    (hbefore : ∀ t ∈ others, t.1 < r.1 → t ∈ ranges) : r ∈ others := by
  obtain ⟨t, ht, hstart, hstop⟩ := h'.covers r.1 (h.from_index r hr) (h.begins r hr)
  rcases Nat.lt_or_eq_of_le hstart with hlt | heq
  · -- a range that begins before and reaches `r` would overlap it
    have hne : t ≠ r := fun heq => Nat.lt_irrefl _ (heq ▸ hlt)
    have hends := hle _ _ (h.ends r hr)
    rcases h.disjoint (hbefore t ht hlt) hr hne with h | h <;> omega
  · have hsame : t.2 = r.2 := hunique _ _ _ (h'.ends t ht) (heq ▸ h.ends r hr)
    exact Prod.ext heq hsame ▸ ht

/-- **A scan has one result**, if the start of a range says where it ends. -/
theorem unique (h : SideBySide Begins Ends index ranges)
    (h' : SideBySide Begins Ends index others) : ranges = others := by
  -- by induction on where a range begins, since what lies before it settles whether it is one
  have hmem : ∀ n, ∀ r : Nat × Nat, r.1 = n → (r ∈ ranges ↔ r ∈ others) := by
    intro n
    induction n using Nat.strongRecOn with
    | ind n ih =>
      intro r hn
      constructor
      · exact fun hr => mem_of_mem hle hunique h h' hr fun t ht hlt =>
          (ih t.1 (hn ▸ hlt) t rfl).2 ht
      · exact fun hr => mem_of_mem hle hunique h' h hr fun t ht hlt =>
          (ih t.1 (hn ▸ hlt) t rfl).1 ht
  -- a range ends behind its start, so that the starts increase as well
  have hstarts : ∀ {l}, SideBySide Begins Ends index l → l.Pairwise fun a b => a.1 < b.1 := by
    intro l hl
    refine hl.increasing.imp_of_mem fun ha _ hab => ?_
    exact Nat.lt_of_le_of_lt (hle _ _ (hl.ends _ ha)) hab
  have : Std.Antisymm fun a b : Nat × Nat => a.1 < b.1 := ⟨fun _ _ h h' => absurd h (by omega)⟩
  have : Std.Irrefl fun a b : Nat × Nat => a.1 < b.1 := ⟨fun _ => Nat.lt_irrefl _⟩
  exact (hstarts h).eq_of_mem_iff (hstarts h') fun r => hmem r.1 r rfl

theorem iff_eq (h : SideBySide Begins Ends index ranges) :
    SideBySide Begins Ends index others ↔ others = ranges :=
  ⟨fun h' => unique hle hunique h' h, fun heq => heq ▸ h⟩

end

end SideBySide

/-! ## The ends of blocks -/

variable {lines rest : List (List Char)} {line : List Char} {start stop index k : Nat}

/-- How many more braces are opened than closed in the lines from one index to another. -/
def openBraces (lines : List (List Char)) (start k : Nat) : Int :=
  balance ((lines.take (k + 1)).drop start).flatten

/-- **The last line of the block that a line opens**: the first one, from that line on, up to which
as many braces are closed as opened, or the last line of all if there is none. -/
structure EndsAt (lines : List (List Char)) (start stop : Nat) : Prop where
  le : start ≤ stop
  lt : stop < lines.length
  open_before : ∀ k, start ≤ k → k < stop → 0 < openBraces lines start k
  closed : openBraces lines start stop ≤ 0 ∨ stop + 1 = lines.length

theorem EndsAt.unique {stop' : Nat} (h : EndsAt lines start stop)
    (h' : EndsAt lines start stop') : stop = stop' := by
  -- the earlier of two ends is closed there, or there is no line behind it
  have hnot : ∀ {a b}, EndsAt lines start a → EndsAt lines start b → ¬ a < b := by
    intro a b ha hb hlt
    have hopen := hb.open_before a ha.le hlt
    have hlast := hb.lt
    rcases ha.closed with h | h <;> omega
  have hge := hnot h h'
  have hle := hnot h' h
  omega

theorem balance_append (a b : List Char) : balance (a ++ b) = balance a + balance b := by
  simp only [balance, List.count_append]
  omega

/-- What is open at a line is open before it, and what the line itself opens. -/
theorem openBraces_succ (hle : start ≤ k + 1) (hline : lines[k + 1]? = some line) :
    openBraces lines start (k + 1) = openBraces lines start k + balance line := by
  have hk : k + 1 < lines.length := (List.getElem?_eq_some_iff.1 hline).1
  have hlength : start ≤ (lines.take (k + 1)).length := by
    rw [List.length_take]
    omega
  unfold openBraces
  rw [List.take_add_one (i := k + 1), hline, Option.toList_some,
    List.drop_append_of_le_length hlength, List.flatten_append, balance_append]
  simp

theorem openBraces_self (hline : lines[k]? = some line) : openBraces lines k k = balance line := by
  have hk : k < lines.length := (List.getElem?_eq_some_iff.1 hline).1
  have hlength : (lines.take k).length = k := by
    rw [List.length_take]
    omega
  unfold openBraces
  rw [List.take_add_one, hline, Option.toList_some, List.drop_append_of_le_length (by omega),
    List.drop_of_length_le (by omega)]
  simp

/-- The first line of what is left is the line at the index. -/
theorem getElem?_of_drop (h : lines.drop k = line :: rest) : lines[k]? = some line := by
  rw [← List.head?_drop, h, List.head?_cons]

theorem drop_succ_of_drop (h : lines.drop k = line :: rest) : lines.drop (k + 1) = rest := by
  rw [← List.tail_drop, h, List.tail_cons]

/-- **Counting braces line by line comes to the end of the block.** Up to the line at `k` the block
was open before each line, and `depth` is what is open there. -/
theorem endsAt_blockRest {depth : Int} (hle : start ≤ k) (hlt : k < lines.length)
    (hrest : lines.drop (k + 1) = rest) (hdepth : openBraces lines start k = depth)
    (hopen : ∀ j, start ≤ j → j < k → 0 < openBraces lines start j) :
    EndsAt lines start (k + blockRest depth rest) := by
  induction rest generalizing k depth with
  | nil =>
    have hlast : lines.length ≤ k + 1 := List.drop_eq_nil_iff.1 hrest
    exact ⟨hle, hlt, hopen, .inr (by simp only [blockRest]; omega)⟩
  | cons line rest ih =>
    rw [blockRest]
    split
    next hpos =>
      have hline := getElem?_of_drop hrest
      have hnext : k + 1 < lines.length := (List.getElem?_eq_some_iff.1 hline).1
      rw [show k + (blockRest (depth + balance line) rest + 1) =
        k + 1 + blockRest (depth + balance line) rest by omega]
      refine ih (by omega) hnext (drop_succ_of_drop hrest) ?_ fun j hj hjk => ?_
      · rw [openBraces_succ (by omega) hline, hdepth]
      · rcases Nat.lt_or_eq_of_le (Nat.le_of_lt_succ hjk) with hlt | rfl
        · exact hopen j hj hlt
        · exact hdepth ▸ hpos
    next hclosed => exact ⟨hle, hlt, hopen, .inl (by rw [Nat.add_zero, hdepth]; omega)⟩

/-- The block that a line opens, counted from that line on. -/
theorem endsAt_block (h : lines.drop k = line :: rest) :
    EndsAt lines k (k + blockRest (balance line) rest) := by
  have hline := getElem?_of_drop h
  have hlt : k < lines.length := (List.getElem?_eq_some_iff.1 hline).1
  exact endsAt_blockRest (Nat.le_refl _) hlt (drop_succ_of_drop h) (openBraces_self hline)
    fun j hj hlt => absurd hj (by omega)

/-! ## The blocks of declarations -/

section Declarations

variable {α : Type} {declaration : List Char → Option α}

/-- The first and last lines of the blocks that a scan for declarations visits. -/
def spans (declaration : List Char → Option α) (index : Nat) (lines : List (List Char)) :
    List (Nat × Nat) :=
  (visits declaration index lines).filterMap fun v => v.stop.map (v.index, ·)

/-- A line that declares something and has an opening brace. -/
def OpensBlock (declaration : List Char → Option α) (lines : List (List Char)) (k : Nat) : Prop :=
  ∃ line, lines[k]? = some line ∧ (declaration line).isSome = true ∧ openBrace ∈ line

theorem not_opensBlock (hline : lines[k]? = some line)
    (h : declaration line = none ∨ opens line = false) : ¬ OpensBlock declaration lines k := by
  rintro ⟨line', hline', hfound, hopens⟩
  obtain rfl : line = line' := Option.some.inj (hline.symm.trans hline')
  rcases h with h | h
  · rw [h] at hfound
    exact Bool.noConfusion hfound
  · exact absurd (List.contains_iff_mem.2 hopens) (by rw [← opens, h]; decide)

/-- **A scan visits exactly the blocks of declarations**, side by side. -/
theorem sideBySide_spans (h : lines.drop index = rest) :
    SideBySide (OpensBlock declaration lines) (EndsAt lines) index
      (spans declaration index rest) := by
  -- along the recursion of the scan: a line is passed, or it begins a block and the block is
  induction index, rest using visits.induct declaration with
  | case1 index =>
    rw [spans, visits]
    refine .nil fun k hk hbegins => ?_
    obtain ⟨line, hline, -⟩ := hbegins
    have hlast : lines.length ≤ index := List.drop_eq_nil_iff.1 h
    have hlt : k < lines.length := (List.getElem?_eq_some_iff.1 hline).1
    omega
  | case2 index line rest hnone ih =>
    have hspans : spans declaration index (line :: rest) = spans declaration (index + 1) rest := by
      rw [spans, visits]
      simp only [hnone, spans]
    rw [hspans]
    exact .skip (not_opensBlock (getElem?_of_drop h) (.inl hnone)) (ih (drop_succ_of_drop h))
  | case3 index line rest found hsome hopens more ih =>
    have hspans : spans declaration index (line :: rest) =
        (index, index + more) :: spans declaration (index + more + 1) (rest.drop more) := by
      rw [spans, visits]
      simp only [hsome, hopens, if_true, spans]
      rfl
    have hdrop : lines.drop (index + more + 1) = rest.drop more := by
      rw [← drop_succ_of_drop h, List.drop_drop, Nat.add_right_comm]
    rw [hspans]
    refine .cons ?_ (endsAt_block h) (Nat.le_add_right _ _) (ih hdrop)
    exact ⟨line, getElem?_of_drop h, by rw [hsome]; rfl, List.contains_iff_mem.1 hopens⟩
  | case4 index line rest found hsome hopens ih =>
    have hspans : spans declaration index (line :: rest) = spans declaration (index + 1) rest := by
      rw [spans, visits]
      simp only [hsome, hopens, spans]
      rfl
    rw [hspans]
    exact .skip (not_opensBlock (getElem?_of_drop h) (.inr (by simpa using hopens)))
      (ih (drop_succ_of_drop h))

/-- The blocks of declarations are the only ranges of their kind. -/
theorem sideBySide_iff_eq_spans {ranges : List (Nat × Nat)} :
    SideBySide (OpensBlock declaration lines) (EndsAt lines) 0 ranges ↔
      ranges = spans declaration 0 lines :=
  SideBySide.iff_eq (fun _ _ h => h.le) (fun _ _ _ h h' => h.unique h') (sideBySide_spans rfl)

end Declarations

/-! ## One rule among those of a check -/

/-- Issues without a rule, behind others. -/
theorem filter_append_placed {rules : List RuleInfo} {issues : String → List Issue} {id : String}
    (hid : ∀ r ∈ rules, r.id ≠ id) (a : List Issue) (h : Placed rules issues) (path : String) :
    (a ++ issues path).filter (·.ruleId == id) = a.filter (·.ruleId == id) := by
  rw [List.filter_append, h.filter_eq_nil hid, List.append_nil]

/-- One report at most, which is of one rule. -/
theorem filter_report {rule : RuleInfo} {report : Option Issue}
    (h : ∀ i ∈ report, i.ruleId = rule.id) (id : String) :
    report.toList.filter (·.ruleId == id) = if rule.id = id then report.toList else [] := by
  cases report with
  | none => simp
  | some i => simp [List.filter_singleton, h i rfl]

/-! ## Languages whose blocks are measured -/

/-- The languages with braces. -/
inductive BraceLanguage where
  | javaScript
  | go
  | kotlin
  | java
  deriving Repr, DecidableEq

namespace BraceLanguage

/-- The checks of a language. -/
def analyser : BraceLanguage → Analyser
  | javaScript => .javaScript
  | go => .go
  | kotlin => .kotlin
  | java => .java

/-- What declares a function; its name is kept under 1. -/
def declaration : BraceLanguage → List Char → Option Found
  | javaScript => JavaScript.declaration
  | go => Go.functionHead.search
  | kotlin => Kotlin.functionHead.search
  | java => Java.methodHead.search

/-- The rule that functions are not too long. -/
def longRule : BraceLanguage → RuleInfo
  | javaScript => Catalogue.scriptLongFunction
  | go => Catalogue.goLongFunction
  | kotlin => Catalogue.kotlinLongFunction
  | java => Catalogue.javaLongMethod

/-- What is said of a function with a number of lines. -/
def longMessage (length : Nat) : BraceLanguage → String
  | java => s!"Method spans {length} lines; target at most 60."
  | _ => s!"Function spans {length} lines; target at most 60."

/-- Whether a function may have any length: a constructor, which has the name of its file. -/
def spares (L : BraceLanguage) (f : SourceFile) (m : Found) : Bool :=
  L = java ∧ m.group 1 = Java.stem f

/-- **What is reported of a span of lines**: more than sixty lines, at the name of the function. -/
def tooLong? (L : BraceLanguage) (f : SourceFile) (span : Nat × Nat) : Option Issue :=
  (f.lines[span.1]?.bind L.declaration).bind fun m =>
    let length := span.2 + 1 - span.1
    if 60 < length ∧ L.spares f m = false then
      some (L.longRule.issue f.path (span.1 + 1 : Nat) (m.column 1) (L.longMessage length))
    else none

variable (L : BraceLanguage) (f : SourceFile)

/-- What a visit is reported for. -/
def visitIssue? (v : Visit Found) : Option Issue :=
  v.stop.bind fun stop => L.tooLong? f (v.index, stop)

theorem tooLong?_visit {v : Visit Found} (h : v ∈ visits L.declaration 0 f.lines) (stop : Nat) :
    L.tooLong? f (v.index, stop) =
      if 60 < stop + 1 - v.index ∧ L.spares f v.found = false then
        some (L.longRule.issue f.path (v.index + 1 : Nat) (v.found.column 1)
          (L.longMessage (stop + 1 - v.index)))
      else none := by
  obtain ⟨k, hindex, hline, hfound⟩ := mem_visits h
  rw [Nat.zero_add] at hindex
  simp only [tooLong?, hindex, hline, Option.bind_some, hfound]

/-- The reports of the visits are the reports of the spans. -/
theorem filterMap_spans :
    (spans L.declaration 0 f.lines).filterMap (L.tooLong? f) =
      (visits L.declaration 0 f.lines).filterMap (L.visitIssue? f) := by
  rw [spans, List.filterMap_filterMap]
  refine List.filterMap_congr fun v _ => ?_
  cases hstop : v.stop <;> simp [visitIssue?, hstop]

theorem longMessage_eq (hL : L ≠ java) (length : Nat) :
    L.longMessage length = s!"Function spans {length} lines; target at most {maxBlockLines}." := by
  simp only [String.append_assoc]
  cases L with
  | java => exact absurd rfl hL
  | javaScript => rfl
  | go => rfl
  | kotlin => rfl

/-- The functions that are too long, in the languages that have no constructors. -/
theorem longFunctions_eq (hL : L ≠ java) :
    longFunctions L.longRule L.declaration f =
      (visits L.declaration 0 f.lines).filterMap (L.visitIssue? f) := by
  have hspares : ∀ m, L.spares f m = false := fun m => by simp [spares, hL]
  refine List.filterMap_congr fun v hv => ?_
  rw [visitIssue?, Visit.length?, Option.bind_map]
  refine Option.bind_congr fun stop _ => ?_
  rw [tooLong?_visit L f hv, longMessage_eq L hL]
  by_cases hlength : stop + 1 - v.index ≤ maxBlockLines
  · exact (if_pos hlength).trans (if_neg fun h => Nat.not_lt.2 hlength h.1).symm
  · exact (if_neg hlength).trans (if_pos ⟨Nat.lt_of_not_le hlength, hspares _⟩).symm

theorem filter_longFunctions :
    (longFunctions L.longRule L.declaration f).filter (·.ruleId == L.longRule.id) =
      longFunctions L.longRule L.declaration f := by
  refine List.filter_eq_self.2 fun i hi => ?_
  obtain ⟨v, _, hv⟩ := List.mem_filterMap.1 hi
  obtain ⟨length, _, hlength⟩ := Option.bind_eq_some_iff.1 hv
  split at hlength
  · exact absurd hlength (by simp)
  · rw [← Option.some.inj hlength]
    exact beq_self_eq_true _

theorem longMessage_java (length : Nat) :
    java.longMessage length = s!"Method spans {length} lines; target at most {maxBlockLines}." := by
  simp only [String.append_assoc]
  rfl

/-- The report that a method is too long. -/
theorem filter_javaMethod {v : Visit Found} (hv : v ∈ visits java.declaration 0 f.lines) :
    (Java.methodIssues f v).filter (·.ruleId == java.longRule.id) =
      (java.visitIssue? f v).toList := by
  refine (List.filter_append _ _).trans ?_
  rw [show List.filter _ _ = [] from ?parameters, List.nil_append, visitIssue?, Visit.length?]
  case parameters => split <;> rfl
  cases hstop : v.stop with
  | none => rfl
  | some stop =>
    -- spared are methods that are short enough and those that have the name of the file
    rw [Option.map_some, Option.bind_some, tooLong?_visit java f hv, longMessage_java]
    by_cases hlength : stop + 1 - v.index ≤ maxBlockLines ∨ v.found.group 1 = Java.stem f
    · have hnot : ¬ (60 < stop + 1 - v.index ∧ java.spares f v.found = false) := by
        rintro ⟨hlong, hspares⟩
        have hname : v.found.group 1 ≠ Java.stem f := by simpa [spares] using hspares
        exact hlength.elim (Nat.not_le.2 hlong) hname
      simp only [if_pos hlength, if_neg hnot]
      rfl
    · have hlong : 60 < stop + 1 - v.index ∧ java.spares f v.found = false := by
        refine ⟨Nat.lt_of_not_le fun h => hlength (.inl h), ?_⟩
        have hname : v.found.group 1 ≠ Java.stem f := fun h => hlength (.inr h)
        simpa [spares] using hname
      simp only [if_neg hlength, if_pos hlong]
      rfl

/-- **The reports of long functions are those of the blocks that are too long.** -/
theorem filter_check : (L.analyser.check f).filter (·.ruleId == L.longRule.id) =
    (visits L.declaration 0 f.lines).filterMap (L.visitIssue? f) := by
  cases L with
  | javaScript =>
    rw [← longFunctions_eq javaScript f (by decide), ← filter_longFunctions]
    exact JavaScript.parts.filter_eq Catalogue.scriptLongFunction rfl f
  | go =>
    rw [← longFunctions_eq go f (by decide), ← filter_longFunctions]
    exact Go.parts.filter_eq Catalogue.goLongFunction rfl f
  | kotlin =>
    rw [← longFunctions_eq kotlin f (by decide), ← filter_longFunctions]
    exact Kotlin.parts.filter_eq Catalogue.kotlinLongFunction rfl f
  | java =>
    rw [List.filterMap_eq_flatMap_toList, ← List.flatMap_congr fun v => filter_javaMethod f,
      ← List.filter_flatMap]
    exact Java.parts.filter_eq Catalogue.javaLongMethod rfl f

/-- **The blocks of functions are measured exactly.** Their spans are the only ones that lie side by
side, begin with a declaration that opens a block, end where its braces are closed, and leave out
none; what is reported are the spans with more than sixty lines. -/
theorem block_lengths_measured_exactly :
    (∀ ranges, SideBySide (OpensBlock L.declaration f.lines) (EndsAt f.lines) 0 ranges ↔
      ranges = spans L.declaration 0 f.lines) ∧
    (L.analyser.check f).filter (·.ruleId == L.longRule.id) =
      (spans L.declaration 0 f.lines).filterMap (L.tooLong? f) ∧
    spans java.declaration 0 f.lines = Java.methodRanges f.lines 0 :=
  ⟨fun _ => sideBySide_iff_eq_spans, (filter_check L f).trans (filterMap_spans L f).symm, rfl⟩

end BraceLanguage

end CodeAudit.Checks
