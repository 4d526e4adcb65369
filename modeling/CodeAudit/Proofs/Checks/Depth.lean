import CodeAudit.Proofs.Checks.Blocks
import CodeAudit.Proofs.Text.Places
import Mathlib.Order.Bounds.Basic

/-!
# The depth of blocks

The depth of the blocks of a text is the greatest number of braces that are open at once, the
outermost one not counted (`textDepth`). Where lines are counted as a whole, a line opens its braces
before it closes any, so that the depth which is reported is never too small
(`textDepth_le_blockDepth`). It is the depth of the text, as far as it shows, exactly if no line
comes above the depth of the text and above the limit in this way (`depth_reported_exactly_iff`).
-/

namespace CodeAudit.Checks

open Text

variable {text a b line : List Char} {lines : List (List Char)} {c : Char}

/-! ## Braces that are open at once -/

/-- The greatest number of braces that are open at once in a text. -/
def mostOpen : List Char → Int
  | [] => 0
  | c :: rest => max 0 (balance [c] + mostOpen rest)

/-- The depth of the blocks of a text; the outermost block does not count. -/
def textDepth (text : List Char) : Nat := (mostOpen text - 1).toNat

theorem balance_nil : balance [] = 0 := rfl

theorem balance_cons (c : Char) (text : List Char) :
    balance (c :: text) = balance [c] + balance text := balance_append [c] text

theorem mostOpen_nonneg (text : List Char) : 0 ≤ mostOpen text := by
  cases text with
  | nil => exact Int.le_refl 0
  | cons c rest => exact Int.le_max_left _ _

theorem mostOpen_append (a b : List Char) :
    mostOpen (a ++ b) = max (mostOpen a) (balance a + mostOpen b) := by
  induction a with
  | nil =>
    have hb := mostOpen_nonneg b
    rw [List.nil_append, balance_nil, mostOpen]
    omega
  | cons c a ih =>
    rw [List.cons_append, mostOpen, ih, mostOpen, balance_cons c a]
    omega

/-- **The greatest number of open braces is the greatest balance of a start of the text.** -/
theorem isGreatest_mostOpen (text : List Char) :
    IsGreatest (Set.image balance {start | start <+: text}) (mostOpen text) := by
  induction text with
  | nil =>
    refine ⟨⟨[], List.nil_prefix, rfl⟩, ?_⟩
    rintro _ ⟨start, hstart, rfl⟩
    rw [List.prefix_nil.1 hstart, balance_nil, mostOpen]
  | cons c rest ih =>
    obtain ⟨⟨most, hmost, hbalance⟩, hupper⟩ := ih
    constructor
    · -- either the text before the first character, or the start of the rest behind it
      rcases Int.le_total 0 (balance [c] + mostOpen rest) with hle | hle
      · refine ⟨c :: most, (List.prefix_cons_inj c).2 hmost, ?_⟩
        rw [balance_cons, hbalance, mostOpen, Int.max_eq_right hle]
      · exact ⟨[], List.nil_prefix, by rw [balance_nil, mostOpen, Int.max_eq_left hle]⟩
    · rintro _ ⟨start, hstart, rfl⟩
      rw [mostOpen]
      rcases List.prefix_cons_iff.1 hstart with rfl | ⟨tail, rfl, htail⟩
      · exact Int.le_max_left _ _
      · have htail := hupper ⟨tail, htail, rfl⟩
        rw [balance_cons]
        omega

theorem balance_le_count (a : List Char) : balance a ≤ a.count openBrace := by
  rw [balance]
  omega

/-- No more braces are open at once than there are opening ones. -/
theorem mostOpen_le_count (line : List Char) : mostOpen line ≤ line.count openBrace := by
  obtain ⟨⟨start, hstart, hbalance⟩, -⟩ := isGreatest_mostOpen line
  calc mostOpen line = balance start := hbalance.symm
    _ ≤ start.count openBrace := balance_le_count start
    _ ≤ line.count openBrace := Int.ofNat_le.2 (hstart.sublist.count_le _)

/-! ## Lines -/

theorem balance_lineEnd (h : isLineEnd c = true) : balance [c] = 0 := by
  have hopen : c ≠ openBrace := by rintro rfl; revert h; decide
  have hclose : c ≠ closeBrace := by rintro rfl; revert h; decide
  simp [balance, hopen, hclose]

theorem mostOpen_cons_lineEnd (h : isLineEnd c = true) (text : List Char) :
    mostOpen (c :: text) = mostOpen text := by
  have htext := mostOpen_nonneg text
  rw [mostOpen, balance_lineEnd h]
  omega

/-- Line ends do not matter to what is open. -/
theorem mostOpen_splitLinesFrom (line text : List Char) :
    mostOpen (splitLinesFrom line text).flatten = mostOpen (line.reverse ++ text) := by
  fun_induction splitLinesFrom line text with
  | case1 line hline => simp [List.isEmpty_iff.1 hline]
  | case2 line _ => simp
  | case3 line rest ih =>
    rw [List.flatten_cons, mostOpen_append, ih, List.reverse_nil, List.nil_append,
      mostOpen_append line.reverse, mostOpen_cons_lineEnd (by decide),
      mostOpen_cons_lineEnd (by decide)]
  | case4 line c rest _ hend ih =>
    rw [List.flatten_cons, mostOpen_append, ih, List.reverse_nil, List.nil_append,
      mostOpen_append line.reverse, mostOpen_cons_lineEnd hend]
  | case5 line c rest _ _ ih => rw [ih, List.reverse_cons, List.append_assoc, List.singleton_append]

theorem mostOpen_splitLines (text : List Char) :
    mostOpen (splitLines text).flatten = mostOpen text := mostOpen_splitLinesFrom [] text

/-! ## Counting by lines -/

/-- **What counting by lines comes to**: the least bound on the depths at which the lines would be
if they opened all their braces first. -/
theorem depthFrom_le_iff {depth : Int} {most bound : Nat} :
    depthFrom depth most lines ≤ bound ↔ most ≤ bound ∧ ∀ k line, lines[k]? = some line →
      depth + balance (lines.take k).flatten + line.count openBrace ≤ bound + 1 := by
  induction lines generalizing depth most with
  | nil => simp [depthFrom]
  | cons first rest ih =>
    rw [depthFrom, ih]
    have hbalance : balance first = first.count openBrace - first.count closeBrace := rfl
    constructor
    · rintro ⟨hmost, hrest⟩
      refine ⟨by omega, fun k line hline => ?_⟩
      cases k with
      | zero =>
        obtain rfl : first = line := Option.some.inj hline
        rw [List.take_zero, List.flatten_nil, balance_nil]
        omega
      | succ k =>
        have hline := hrest k line hline
        rw [List.take_succ_cons, List.flatten_cons, balance_append]
        omega
    · rintro ⟨hmost, hlines⟩
      have hfirst := hlines 0 first rfl
      rw [List.take_zero, List.flatten_nil, balance_nil] at hfirst
      refine ⟨by omega, fun k line hline => ?_⟩
      have hline := hlines (k + 1) line hline
      rw [List.take_succ_cons, List.flatten_cons, balance_append] at hline
      omega

theorem le_depthFrom (depth : Int) (most : Nat) (lines : List (List Char)) :
    most ≤ depthFrom depth most lines := (depthFrom_le_iff.1 (Nat.le_refl _)).1

/-- Counting by lines does not come below what is open at once. The depth before a line is never
more than one above the greatest one so far. -/
theorem add_mostOpen_le_depthFrom (lines : List (List Char)) (depth : Int) (most : Nat)
    (h : depth ≤ most + 1) :
    depth + mostOpen lines.flatten ≤ depthFrom depth most lines + 1 := by
  induction lines generalizing depth most with
  | nil =>
    rw [List.flatten_nil, mostOpen, depthFrom]
    omega
  | cons first rest ih =>
    have hfirst := mostOpen_le_count first
    have hbalance : balance first = first.count openBrace - first.count closeBrace := rfl
    rw [List.flatten_cons, mostOpen_append, depthFrom]
    have hmost := le_depthFrom (depth + first.count openBrace - first.count closeBrace)
      (max most (depth + first.count openBrace - 1).toNat) rest
    have hrest := ih (depth + first.count openBrace - first.count closeBrace)
      (max most (depth + first.count openBrace - 1).toNat) (by omega)
    omega

/-- **The depth that is counted by lines is not less than the real one.** -/
theorem textDepth_le_blockDepth (text : List Char) :
    textDepth text ≤ blockDepth (splitLines text) := by
  have hle := add_mostOpen_le_depthFrom (splitLines text) 0 0 (by decide)
  rw [mostOpen_splitLines] at hle
  rw [textDepth, blockDepth]
  omega

theorem blockDepth_le_iff {bound : Nat} : blockDepth lines ≤ bound ↔ ∀ k line,
    lines[k]? = some line →
      balance (lines.take k).flatten + line.count openBrace ≤ bound + 1 := by
  simp [blockDepth, depthFrom_le_iff]

/-! ## Reports -/

namespace BraceLanguage

variable (L : BraceLanguage) (f : SourceFile)

/-- The rule that blocks do not lie too deep. -/
def nestingRule : BraceLanguage → RuleInfo
  | javaScript => Catalogue.scriptNesting
  | go => Catalogue.goNesting
  | kotlin => Catalogue.kotlinNesting
  | java => Catalogue.javaNesting

/-- What is said of blocks that lie too deep. -/
def depthMessage (depth : Nat) : String :=
  s!"Maximum block nesting depth is {depth}; keep it at or below 4."

/-- What is reported by the rule on the depth of blocks. -/
def depthReports : List Issue := (L.analyser.check f).filter (·.ruleId == L.nestingRule.id)

theorem depthMessage_eq (depth : Nat) : depthMessage depth =
    s!"Maximum block nesting depth is {depth}; keep it at or below {maxBlockDepth}." := by
  unfold depthMessage
  simp only [String.append_assoc]
  rfl

theorem deepBlocks_eq (r : RuleInfo) :
    deepBlocks r f = aboveLimit r 4 depthMessage f.path (blockDepth f.lines) := by
  unfold deepBlocks aboveLimit
  rw [depthMessage_eq]
  by_cases h : blockDepth f.lines ≤ maxBlockDepth
  · exact (if_pos h).trans (if_neg (Nat.not_lt.2 h)).symm
  · exact (if_neg h).trans (if_pos (Nat.lt_of_not_le h)).symm

theorem filter_deepBlocks (r : RuleInfo) :
    (deepBlocks r f).filter (·.ruleId == r.id) = deepBlocks r f := by
  refine List.filter_eq_self.2 fun i hi => ?_
  rw [deepBlocks] at hi
  split at hi
  · cases hi
  · rw [List.mem_singleton.1 hi]
    exact beq_self_eq_true _

theorem depthReports_eq_deepBlocks : L.depthReports f = deepBlocks L.nestingRule f := by
  rw [← filter_deepBlocks]
  cases L with
  | javaScript => exact JavaScript.parts.filter_eq Catalogue.scriptNesting rfl f
  | go => exact Go.parts.filter_eq Catalogue.goNesting rfl f
  | kotlin => exact Kotlin.parts.filter_eq Catalogue.kotlinNesting rfl f
  | java => exact Java.parts.filter_eq Catalogue.javaNesting rfl f

/-- The reports are those of the depth that is counted by lines. -/
theorem depthReports_eq : L.depthReports f =
    aboveLimit L.nestingRule 4 depthMessage f.path (blockDepth f.lines) :=
  (depthReports_eq_deepBlocks L f).trans (deepBlocks_eq f _)

/-- **The depth of blocks is reported exactly, unless a line has blocks side by side that count as
nested.** The depth is the greatest balance of a start of the text, less one. What is reported is
never of a smaller depth; and it is of this very depth, or there is nothing to report of either,
exactly if no line comes above the limit and above what is open at once by opening all its braces
first. -/
theorem depth_reported_exactly_iff (path : Path) (text : List Char) :
    IsGreatest (Set.image balance {start | start <+: text}) (mostOpen text) ∧
    (∃ depth, textDepth text ≤ depth ∧ L.depthReports (.of path text) =
      aboveLimit L.nestingRule 4 depthMessage path.toString depth) ∧
    (L.depthReports (.of path text) =
        aboveLimit L.nestingRule 4 depthMessage path.toString (textDepth text) ↔
      ∀ k line, (splitLines text)[k]? = some line →
        balance ((splitLines text).take k).flatten + line.count openBrace ≤
          max 5 (mostOpen text)) := by
  have hle := textDepth_le_blockDepth text
  have hreports := depthReports_eq L (.of path text)
  refine ⟨isGreatest_mostOpen text, ⟨_, hle, hreports⟩, ?_⟩
  have hbound : ((max 4 (textDepth text) : Nat) : Int) + 1 = max 5 (mostOpen text) := by
    rw [textDepth]
    omega
  rw [hreports, ← hbound, ← blockDepth_le_iff]
  exact aboveLimit_eq_iff surrounded_inj hle

/-- Six blocks side by side in a line. -/
def branches : List Char := "if(a){}else if(b){}else if(c){}else if(d){}else if(e){}else{}".toList

/-- **Blocks side by side are reported as nested.** -/
theorem branches_reported_as_nested :
    textDepth branches = 0 ∧ java.depthReports (.of ⟨.relative, ["A.java"]⟩ branches) =
      [Catalogue.javaNesting.issue "A.java" 1 1
        "Maximum block nesting depth is 5; keep it at or below 4."] := by
  refine ⟨by decide +kernel, ?_⟩
  rw [depthReports_eq]
  decide +kernel

end BraceLanguage

end CodeAudit.Checks
