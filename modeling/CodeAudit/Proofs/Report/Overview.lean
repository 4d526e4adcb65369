import CodeAudit.Proofs.Report.Decoding
import Mathlib.Algebra.BigOperators.Group.List.Lemmas
import Mathlib.Algebra.GroupWithZero.Nat
import Mathlib.Data.List.Sort

/-!
# The numbers of a report

A JSON report gives its totals next to the issues that they are taken from. A reader of the totals
(`overview?`) shares nothing with the writer but the names of the members; what it reads agrees with
the issues (`Overview.Agrees`). The counts by text are told by what they count (`IsTally`), so that
one of them is a part of another whenever the texts are (`IsTally.filter`), and the files with most
issues are the beginning of a list in strict order.
-/

namespace CodeAudit.Report

open Json

variable {texts : List String} {counts counts' : List (String × Nat)} {issues : List Issue}

/-! ## Reading the numbers -/

/-- A count. -/
def count? : Json → Option Nat
  | .int n => n.toNat?
  | _ => none

/-- Counts by name. -/
def counts? (j : Json) : Option (List (String × Nat)) := do
  (← j.members?).mapM fun m => (count? m.2).map (m.1, ·)

/-- A file with the number of its issues. -/
def topFile? (j : Json) : Option (String × Nat) := do
  return (← text? j "file_path", ← (j.get? "issues").bind count?)

/-- Files with the numbers of their issues. -/
def topFiles? (j : Json) : Option (List (String × Nat)) := do
  (← j.items?).mapM topFile?

/-- The totals of the security issues in a report. -/
structure Summary where
  total : Nat
  files : Nat
  rules : List (String × Nat)
  languages : List (String × Nat)
  topFiles : List (String × Nat)

/-- The totals of a report. -/
structure Overview where
  total : Nat
  files : Nat
  rules : List (String × Nat)
  security : Summary

/-- The totals that a summary of security issues gives. -/
def summary? (j : Json) : Option Summary := do
  return {
    total := ← (j.get? "issues_total").bind count?
    files := ← (j.get? "files_with_issues").bind count?
    rules := ← (j.get? "rule_counts").bind counts?
    languages := ← (j.get? "language_counts").bind counts?
    topFiles := ← (j.get? "top_files").bind topFiles? }

/-- **The totals that a report gives.** -/
def overview? (report : Json) : Option Overview := do
  return {
    total := ← (report.get? "issues_total").bind count?
    files := ← (report.get? "files_with_issues").bind count?
    rules := ← (report.get? "rule_counts").bind counts?
    security := ← (report.get? "security_summary").bind summary? }

/-- The totals of some security issues. -/
def summaryOf (issues : List Issue) : Summary where
  total := issues.length
  files := (filesOf issues).length
  rules := tally (issues.map (·.ruleId))
  languages := tally (issues.map fun i => (Language.ofPath i.filePath).name)
  topFiles := topFiles issues

/-- The totals of some issues. -/
def overviewOf (issues : List Issue) : Overview where
  total := issues.length
  files := (filesOf issues).length
  rules := tally (issues.map (·.ruleId))
  security := summaryOf (securityIssues issues)

theorem counts?_tallyValue (texts : List String) :
    counts? (tallyValue texts) = some (tally texts) :=
  mapM_map_eq_some fun _ _ => rfl

theorem summary?_securitySummary (issues : List Issue) :
    summary? (securitySummary issues) = some (summaryOf issues) := by
  have hrules : ((securitySummary issues).get? "rule_counts").bind counts? =
      some (tally (issues.map (·.ruleId))) := counts?_tallyValue _
  have hlanguages : ((securitySummary issues).get? "language_counts").bind counts? =
      some (tally (issues.map fun i => (Language.ofPath i.filePath).name)) :=
    counts?_tallyValue _
  have htop : ((securitySummary issues).get? "top_files").bind topFiles? =
      some (topFiles issues) := mapM_map_eq_some fun _ _ => rfl
  unfold summary?
  rw [hrules, hlanguages, htop]
  rfl

/-- **A report gives the totals of its issues.** -/
theorem overview?_data (result : ScanResult) :
    overview? (data result) = some (overviewOf result.issues) := by
  have hrules : ((data result).get? "rule_counts").bind counts? =
      some (tally (result.issues.map (·.ruleId))) := counts?_tallyValue _
  have hsecurity : ((data result).get? "security_summary").bind summary? =
      some (summaryOf (securityIssues result.issues)) := summary?_securitySummary _
  unfold overview?
  rw [hrules, hsecurity]
  rfl

/-! ## Counts by text -/

theorem mem_sortTexts {t : String} : t ∈ sortTexts texts ↔ t ∈ texts :=
  List.mem_mergeSort

/-- Texts without repetitions are sorted to a strictly increasing list. -/
theorem pairwise_sortTexts (h : texts.Nodup) : (sortTexts texts).Pairwise (· < ·) := by
  have hsorted : (sortTexts texts).Pairwise fun a b => (!decide (b < a)) = true := by
    refine List.pairwise_mergeSort (fun a b c hab hbc => ?_) (fun a b => ?_) texts
    · simp only [Bool.not_eq_true', decide_eq_false_iff_not, String.not_lt] at hab hbc ⊢
      exact String.le_trans hab hbc
    · simp only [Bool.or_eq_true, Bool.not_eq_true', decide_eq_false_iff_not, String.not_lt]
      exact String.le_total a b
  have hnodup : (sortTexts texts).Nodup := (List.mergeSort_perm _ _).nodup_iff.2 h
  refine (hsorted.and hnodup).imp fun {a b} hab => String.not_le.1 fun hle => hab.2 ?_
  have hge : ¬ b < a := by simpa using hab.1
  exact String.le_antisymm (String.not_lt.1 hge) hle

/-- **The counts of some texts**: each text that occurs stands with the number of its occurrences,
in the order of the texts. -/
structure IsTally (texts : List String) (counts : List (String × Nat)) : Prop where
  increasing : (counts.map (·.1)).Pairwise (· < ·)
  mem_iff : ∀ text n, (text, n) ∈ counts ↔ 0 < n ∧ n = texts.count text

theorem isTally_tally (texts : List String) : IsTally texts (tally texts) where
  increasing := by
    have hkeys : (tally texts).map (·.1) = sortTexts texts.eraseDups := by
      rw [tally, List.map_map]
      exact List.map_id _
    rw [hkeys]
    exact pairwise_sortTexts (nodup_eraseDups texts)
  mem_iff text n := by
    rw [tally, List.mem_map]
    constructor
    · rintro ⟨t, ht, heq⟩
      obtain ⟨rfl, rfl⟩ := Prod.mk.inj heq
      rw [mem_sortTexts, List.mem_eraseDups] at ht
      exact ⟨List.count_pos_iff.2 ht, rfl⟩
    · rintro ⟨hpos, rfl⟩
      refine ⟨text, ?_, rfl⟩
      rw [mem_sortTexts, List.mem_eraseDups]
      exact List.count_pos_iff.1 hpos

/-- There is one such list. -/
theorem IsTally.unique (h : IsTally texts counts) (h' : IsTally texts counts') :
    counts = counts' := by
  have hincreasing := List.pairwise_map.1 h.increasing
  have hincreasing' := List.pairwise_map.1 h'.increasing
  have : Std.Antisymm fun a b : String × Nat => a.1 < b.1 :=
    ⟨fun _ _ hab hba => absurd hba (String.lt_asymm hab)⟩
  have : Std.Irrefl fun a b : String × Nat => a.1 < b.1 := ⟨fun _ => String.lt_irrefl _⟩
  refine hincreasing.eq_of_mem_iff hincreasing' fun e => ?_
  rw [h.mem_iff e.1 e.2, h'.mem_iff e.1 e.2]

/-- **The counts make up the number of texts.** -/
theorem IsTally.sum (h : IsTally texts counts) : (counts.map (·.2)).sum = texts.length := by
  rw [h.unique (isTally_tally texts), tally, List.map_map]
  have hperm : (sortTexts texts.eraseDups).Perm texts.dedup := by
    refine (List.mergeSort_perm _ _).trans ?_
    refine (List.perm_ext_iff_of_nodup (nodup_eraseDups texts) texts.nodup_dedup).2 fun t => ?_
    rw [List.mem_eraseDups, List.mem_dedup]
  exact ((hperm.map _).sum_nat).trans (List.sum_map_count_dedup_eq_length texts)

/-- **The counts of some of the texts** are those among the counts of all. -/
theorem IsTally.filter (h : IsTally texts counts) (keep : String → Bool) :
    IsTally (texts.filter keep) (counts.filter fun e => keep e.1) where
  increasing := h.increasing.sublist (List.filter_sublist.map _)
  mem_iff text n := by
    rw [List.mem_filter, h.mem_iff]
    cases hkeep : keep text with
    | true => simp [List.count_filter hkeep]
    | false =>
      have hnone : (texts.filter keep).count text = 0 := by
        rw [List.count_eq_zero, List.mem_filter, hkeep]
        simp
      constructor
      · exact fun h => absurd h.2 (by simp)
      · rintro ⟨hpos, rfl⟩
        omega

/-! ## The files with most issues -/

/-- One file comes before another among those with most issues: it has more, or as many and an
earlier path. -/
def RanksBefore (a b : String × Nat) : Prop := b.2 < a.2 ∨ a.2 = b.2 ∧ a.1 < b.1

/-- The sort compares files by this. -/
theorem rankedBefore_iff {a b : String × Nat} :
    rankedBefore a b = true ↔ RanksBefore a b ∨ a = b := by
  unfold rankedBefore RanksBefore
  simp only [gt_iff_lt, Bool.or_eq_true, decide_eq_true_eq, Bool.and_eq_true, beq_iff_eq,
    Bool.not_eq_true', decide_eq_false_iff_not, Prod.ext_iff]
  constructor
  · rintro (h | ⟨hcount, hpath⟩)
    · exact .inl (.inl h)
    · by_cases hlt : a.1 < b.1
      · exact .inl (.inr ⟨hcount, hlt⟩)
      · exact .inr ⟨String.le_antisymm (String.not_lt.1 hpath) (String.not_lt.1 hlt), hcount⟩
  · rintro ((h | ⟨hcount, hpath⟩) | ⟨hpath, hcount⟩)
    · exact .inl h
    · exact .inr ⟨hcount, String.lt_asymm hpath⟩
    · exact .inr ⟨hcount, hpath ▸ String.lt_irrefl _⟩

theorem RanksBefore.trans {a b c : String × Nat} (hab : RanksBefore a b) (hbc : RanksBefore b c) :
    RanksBefore a c := by
  rcases hab with hab | ⟨hab, hpath⟩ <;> rcases hbc with hbc | ⟨hbc, hpath'⟩
  · exact .inl (by omega)
  · exact .inl (by omega)
  · exact .inl (by omega)
  · exact .inr ⟨hab.trans hbc, String.lt_trans hpath hpath'⟩

theorem ranksBefore_total (a b : String × Nat) : RanksBefore a b ∨ a = b ∨ RanksBefore b a := by
  rcases Nat.lt_trichotomy a.2 b.2 with h | h | h
  · exact .inr (.inr (.inl h))
  · by_cases hab : a.1 < b.1
    · exact .inl (.inr ⟨h, hab⟩)
    by_cases hba : b.1 < a.1
    · exact .inr (.inr (.inr ⟨h.symm, hba⟩))
    · exact .inr (.inl (Prod.ext (String.le_antisymm (String.not_lt.1 hba) (String.not_lt.1 hab))
        h))
  · exact .inl (.inl h)

/-- Counts of texts are sorted to a list in strict order. -/
theorem IsTally.pairwise_mergeSort (h : IsTally texts counts) :
    (counts.mergeSort rankedBefore).Pairwise RanksBefore := by
  have hsorted : (counts.mergeSort rankedBefore).Pairwise fun a b => rankedBefore a b = true := by
    refine List.pairwise_mergeSort (fun a b c hab hbc => ?_) (fun a b => ?_) counts
    · rw [rankedBefore_iff] at hab hbc ⊢
      rcases hab with hab | rfl
      · rcases hbc with hbc | rfl
        · exact .inl (hab.trans hbc)
        · exact .inl hab
      · exact hbc
    · rw [Bool.or_eq_true, rankedBefore_iff, rankedBefore_iff]
      rcases ranksBefore_total a b with hab | rfl | hba
      · exact .inl (.inl hab)
      · exact .inl (.inr rfl)
      · exact .inr (.inl hba)
  have hkeys : (counts.map (·.1)).Nodup := by
    refine List.Pairwise.imp ?_ h.increasing
    rintro a _ hlt rfl
    exact String.lt_irrefl a hlt
  have hnodup : (counts.mergeSort rankedBefore).Nodup :=
    (List.mergeSort_perm _ _).nodup_iff.2 hkeys.of_map
  exact (hsorted.and hnodup).imp fun hab => (rankedBefore_iff.1 hab.1).resolve_right hab.2

/-- **The files with most issues**: as many as there may be, each with the number of its issues, in
strict order, and before every file that is left out. -/
structure IsTop (files : List String) (top : List (String × Nat)) : Prop where
  length : top.length = min 10 files.toFinset.card
  counted : ∀ e ∈ top, e.1 ∈ files ∧ e.2 = files.count e.1
  ordered : top.Pairwise RanksBefore
  before : ∀ file ∈ files, file ∉ top.map (·.1) → ∀ e ∈ top, RanksBefore e (file, files.count file)

theorem isTop_topFiles (issues : List Issue) :
    IsTop (issues.map (·.filePath)) (topFiles issues) := by
  set files := issues.map (·.filePath)
  have htally := isTally_tally files
  set sorted := (tally files).mergeSort rankedBefore
  have htop : topFiles issues = sorted.take 10 := rfl
  have hmem : ∀ e, e ∈ sorted ↔ e ∈ tally files := fun e => List.mem_mergeSort
  have hordered : (sorted.take 10 ++ sorted.drop 10).Pairwise RanksBefore := by
    rw [List.take_append_drop]
    exact htally.pairwise_mergeSort
  rw [List.pairwise_append] at hordered
  rw [htop]
  refine ⟨?_, fun e he => ?_, hordered.1, fun file hfile hout e he => ?_⟩
  · rw [List.length_take, List.length_mergeSort, tally, List.length_map, sortTexts,
      List.length_mergeSort, length_eraseDups]
  · obtain ⟨hpos, hcount⟩ := (htally.mem_iff e.1 e.2).1 ((hmem e).1 (List.mem_of_mem_take he))
    exact ⟨List.count_pos_iff.1 (hcount ▸ hpos), hcount⟩
  · refine hordered.2.2 e he _ ?_
    have hin : (file, files.count file) ∈ sorted.take 10 ++ sorted.drop 10 := by
      rw [List.take_append_drop, hmem, htally.mem_iff]
      exact ⟨List.count_pos_iff.2 hfile, rfl⟩
    rcases List.mem_append.1 hin with hin | hin
    · exact absurd (List.mem_map_of_mem hin) hout
    · exact hin

/-! ## Totals that agree with the issues -/

/-- **Totals that agree with the issues.** -/
structure Overview.Agrees (o : Overview) (issues : List Issue) : Prop where
  total : o.total = issues.length
  files : o.files = (issues.map (·.filePath)).toFinset.card
  rules : IsTally (issues.map (·.ruleId)) o.rules
  rules_sum : (o.rules.map (·.2)).sum = o.total
  security_total : o.security.total = issues.countP fun i => Security.isSecurityRule i.ruleId
  security_rules : o.security.rules = o.rules.filter fun e => Security.isSecurityRule e.1
  security_rules_sum : (o.security.rules.map (·.2)).sum = o.security.total
  languages : IsTally ((issues.filter fun i => Security.isSecurityRule i.ruleId).map fun i =>
    (Language.ofPath i.filePath).name) o.security.languages
  languages_sum : (o.security.languages.map (·.2)).sum = o.security.total
  security_files : o.security.files =
    ((issues.filter fun i => Security.isSecurityRule i.ruleId).map (·.filePath)).toFinset.card
  security_files_le : o.security.files ≤ o.files
  top : IsTop ((issues.filter fun i => Security.isSecurityRule i.ruleId).map (·.filePath))
    o.security.topFiles

theorem agrees_overviewOf (issues : List Issue) : (overviewOf issues).Agrees issues := by
  have hrules := isTally_tally (issues.map (·.ruleId))
  have hsecurity := isTally_tally ((securityIssues issues).map (·.ruleId))
  have hchosen : (securityIssues issues).map (·.ruleId) =
      (issues.map (·.ruleId)).filter Security.isSecurityRule := by
    rw [securityIssues, List.filter_map]
    rfl
  exact {
    total := rfl
    files := length_eraseDups _
    rules := hrules
    rules_sum := hrules.sum.trans (List.length_map ..)
    security_total := List.countP_eq_length_filter.symm
    security_rules := hsecurity.unique (hchosen ▸ hrules.filter Security.isSecurityRule)
    security_rules_sum := hsecurity.sum.trans (List.length_map ..)
    languages := isTally_tally _
    languages_sum := (isTally_tally _).sum.trans (List.length_map ..)
    security_files := length_eraseDups _
    security_files_le := length_filesOf_le_of_mem fun i hi =>
      mem_filesOf.2 ⟨i, (List.mem_filter.1 hi).1, rfl⟩
    top := isTop_topFiles _ }

/-! ## The results of a run -/

/-- What a SARIF report says of an issue. -/
structure Entry where
  ruleId : String
  text : String
  uri : String
  line : Coord
  column : Coord
  deriving DecidableEq

/-- What is said of an issue. -/
def entryOf (i : Issue) : Entry :=
  ⟨i.ruleId, i.title ++ ": " ++ i.message, i.filePath, i.line, i.column⟩

/-- What an object of a SARIF report says. -/
def entry? (j : Json) : Option Entry := do
  let location ← ((← j.get? "locations").items?).bind (·.head?)
  let physical ← location.get? "physicalLocation"
  let region ← physical.get? "region"
  return {
    ruleId := ← text? j "ruleId", text := ← text? (← j.get? "message") "text"
    uri := ← text? (← physical.get? "artifactLocation") "uri"
    line := ← coord? region "startLine", column := ← coord? region "startColumn" }

/-- **What a SARIF report lists.** -/
def entries? (report : Json) : Option (List Entry) := do
  let run ← ((← report.get? "runs").items?).bind (·.head?)
  ((← run.get? "results").items?).bind (·.mapM entry?)

theorem entry?_runResult (i : Issue) : entry? (runResult i) = some (entryOf i) := by
  set region := Json.obj [("startLine", coordValue i.line), ("startColumn", coordValue i.column)]
  have hline : coord? region "startLine" = some i.line := coord?_coordValue i.line
  have hcolumn : coord? region "startColumn" = some i.column := coord?_coordValue i.column
  show (coord? region "startLine").bind _ = _
  rw [hline, Option.bind_some, hcolumn]
  rfl

/-- **It lists the issues of its result**, each once and in their order. -/
theorem entries?_sarif (result : ScanResult) :
    entries? (sarif result) = some (result.issues.map entryOf) := by
  have hitems : entries? (sarif result) = (result.issues.map runResult).mapM entry? := rfl
  have hentry : entry? ∘ runResult = fun i => pure (entryOf i) := funext entry?_runResult
  rw [hitems, List.mapM_map, hentry, List.mapM_pure]
  rfl

/-- **The totals of a report agree with its issues**, and a SARIF report has an entry for each of
them in their order. -/
theorem reported_totals_agree (result : ScanResult) :
    (∃ o, overview? (data result) = some o ∧ o.Agrees result.issues) ∧
      entries? (sarif result) = some (result.issues.map entryOf) :=
  ⟨⟨_, overview?_data result, agrees_overviewOf result.issues⟩, entries?_sarif result⟩

end CodeAudit.Report
