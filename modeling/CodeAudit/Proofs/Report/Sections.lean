import CodeAudit.Proofs.Program.Stages
import CodeAudit.Proofs.Report.Overview
import CodeAudit.Proofs.Scan.Counting

/-!
# The sections of the report for readers

The report for readers takes the issues apart by file and sorts them anew, files by path and the
issues of a file by place. Nothing is lost or shown twice that way: the sections put together are
the issues in another order (`sectioned_sectionsOf`). Where the issues were put together by a scan
it is the same order (`flatMap_sectionsOf_of_inOrder`): the sort in a section is stable, and what a
scan sorts by file, line, column and rule is sorted already in every file.
-/

namespace CodeAudit.Report

open Scan (inOrder ties)

variable {issues : List Issue} {path : String} {i j : Issue}

/-! ## Sections -/

/-- A section of the report: a file and the issues that are listed below it. -/
structure Section where
  path : String
  issues : List Issue

/-- The text of a header. -/
def headerText (path : String) (total critical high medium low : Nat) : String :=
  s!"\nFILE {path} (total={total} c={critical} " ++ s!"h={high} m={medium} " ++ s!"l={low})"

/-- How many of the issues in a file have a severity. -/
def gradedIn (issues : List Issue) (path : String) (s : Severity) : Nat :=
  issues.countP fun i => i.filePath == path && i.severity == s

/-- The header of a file: its path, and how many of the issues are in it, in all and by severity. -/
def header (issues : List Issue) (path : String) : String :=
  headerText path (issues.countP (·.filePath == path)) (gradedIn issues path .critical)
    (gradedIn issues path .high) (gradedIn issues path .medium) (gradedIn issues path .low)

/-- The lines of a section in a report of some issues. -/
def Section.lines (issues : List Issue) (s : Section) : List String :=
  header issues s.path :: s.issues.map issueLine

/-- The lines above the sections. -/
def opening (result : ScanResult) : List String :=
  let security := securityIssues result.issues
  ["SUPERSONAR PRETTY REPORT",
    s!"Summary: files={result.filesScanned} issues={result.issues.length} " ++
      severityWords result.issues,
    s!"Security: issues={security.length} {severityWords security}"] ++
    (result.coverage.map fun c => s!"Coverage: {Number.fixed 2 c.percent}%").toList

/-- The sections of a report. -/
def sectionsOf (issues : List Issue) : List Section :=
  (sortTexts (filesOf issues)).map fun path => ⟨path, issuesOfFile issues path⟩

/-- The issues of a file are those that name it, in another order. -/
theorem perm_issuesOfFile (issues : List Issue) (path : String) :
    (issuesOfFile issues path).Perm (issues.filter (·.filePath == path)) :=
  List.mergeSort_perm _ _

theorem mem_issuesOfFile : i ∈ issuesOfFile issues path ↔ i ∈ issues ∧ i.filePath = path := by
  rw [(perm_issuesOfFile issues path).mem_iff, List.mem_filter, beq_iff_eq]

/-- **The line above the issues of a file is its header.** -/
theorem fileLine_issuesOfFile (issues : List Issue) (path : String) :
    fileLine path (issuesOfFile issues path) = header issues path := by
  have hperm := perm_issuesOfFile issues path
  have htotal : (issuesOfFile issues path).length = issues.countP (·.filePath == path) := by
    rw [hperm.length_eq, List.countP_eq_length_filter]
  have hgraded : ∀ s, countSeverity s (issuesOfFile issues path) = gradedIn issues path s := by
    intro s
    rw [countSeverity, hperm.countP_eq, List.countP_filter, gradedIn]
    simp only [Bool.and_comm]
  have htext : ∀ own, fileLine path own = headerText path own.length (countSeverity .critical own)
      (countSeverity .high own) (countSeverity .medium own) (countSeverity .low own) :=
    fun _ => rfl
  rw [htext, htotal, hgraded, hgraded, hgraded, hgraded, header]

/-- **The report is made of its sections.** -/
theorem pretty_eq (result : ScanResult) : pretty result = "\n".intercalate
    (opening result ++ (sectionsOf result.issues).flatMap (·.lines result.issues)) := by
  have hlines : ∀ path, fileLines result.issues path =
      Section.lines result.issues ⟨path, issuesOfFile result.issues path⟩ := by
    intro path
    rw [fileLines, fileLine_issuesOfFile]
    rfl
  have hsections : (sectionsOf result.issues).flatMap (·.lines result.issues) =
      (sortTexts (filesOf result.issues)).flatMap (fileLines result.issues) := by
    rw [sectionsOf, List.flatMap_map]
    exact List.flatMap_congr fun path _ => (hlines path).symm
  rw [hsections]
  rfl

/-! ## Nothing is lost -/

/-- **Groups under different keys stand one by one in the list that they make up.** -/
theorem filter_flatMap_of_key {α κ : Type} [DecidableEq κ] {key : α → κ} {groups : κ → List α}
    (hkey : ∀ k, ∀ a ∈ groups k, key a = k) {keys : List κ} (hnodup : keys.Nodup) (k : κ) :
    (keys.flatMap groups).filter (key · == k) = if k ∈ keys then groups k else [] := by
  induction keys with
  | nil => rfl
  | cons c keys ih =>
    obtain ⟨hc, hnodup⟩ := List.nodup_cons.1 hnodup
    rw [List.flatMap_cons, List.filter_append, ih hnodup]
    by_cases hck : c = k
    · subst hck
      have hall : (groups c).filter (key · == c) = groups c :=
        List.filter_eq_self.2 fun a ha => by rw [hkey c a ha, beq_self_eq_true]
      rw [hall, if_neg hc, List.append_nil, if_pos List.mem_cons_self]
    · have hnone : (groups c).filter (key · == k) = [] := by
        refine List.filter_eq_nil_iff.2 fun a ha heq => hck ?_
        rw [← hkey c a ha, beq_iff_eq.1 heq]
      rw [hnone, List.nil_append]
      simp only [List.mem_cons, Ne.symm hck, false_or]

/-- The issues of a file stand in the sections as in the file's own. -/
theorem filter_sectionsOf (issues : List Issue) (path : String) :
    ((sectionsOf issues).flatMap (·.issues)).filter (·.filePath == path) =
      issuesOfFile issues path := by
  have hnodup : (sortTexts (filesOf issues)).Nodup :=
    (List.mergeSort_perm _ _).nodup_iff.2 (nodup_filesOf issues)
  rw [sectionsOf, List.flatMap_map,
    filter_flatMap_of_key (fun _ _ hi => (mem_issuesOfFile.1 hi).2) hnodup]
  split
  next => rfl
  next hpath =>
    refine (List.eq_nil_iff_forall_not_mem.2 fun i hi => hpath ?_).symm
    obtain ⟨hmem, hfile⟩ := mem_issuesOfFile.1 hi
    exact mem_sortTexts.2 (mem_filesOf.2 ⟨i, hmem, hfile⟩)

/-- **Sections that show some issues**: their paths increase strictly, none is empty, each lists
issues of its own file, and together they list every issue once. -/
structure Sectioned (issues : List Issue) (sections : List Section) : Prop where
  increasing : (sections.map (·.path)).Pairwise (· < ·)
  nonempty : ∀ s ∈ sections, s.issues ≠ []
  own : ∀ s ∈ sections, ∀ i ∈ s.issues, i.filePath = s.path
  perm : (sections.flatMap (·.issues)).Perm issues

theorem sectioned_sectionsOf (issues : List Issue) : Sectioned issues (sectionsOf issues) where
  increasing := by
    have hpaths : (sectionsOf issues).map (·.path) = sortTexts (filesOf issues) := by
      rw [sectionsOf, List.map_map]
      exact List.map_id _
    rw [hpaths]
    exact pairwise_sortTexts (nodup_filesOf issues)
  nonempty s hs := by
    obtain ⟨path, hpath, rfl⟩ := List.mem_map.1 hs
    obtain ⟨i, hi, hfile⟩ := mem_filesOf.1 (mem_sortTexts.1 hpath)
    exact List.ne_nil_of_mem (mem_issuesOfFile.2 ⟨hi, hfile⟩)
  own s hs i hi := by
    obtain ⟨path, -, rfl⟩ := List.mem_map.1 hs
    exact (mem_issuesOfFile.1 hi).2
  perm := by
    -- an issue occurs as often as in what is listed of its file
    refine List.perm_iff_count.2 fun i => ?_
    have hown : ∀ l : List Issue, (l.filter (·.filePath == i.filePath)).count i = l.count i :=
      fun l => List.count_filter (beq_self_eq_true i.filePath)
    calc ((sectionsOf issues).flatMap (·.issues)).count i
      _ = (issuesOfFile issues i.filePath).count i := by rw [← hown, filter_sectionsOf]
      _ = (issues.filter (·.filePath == i.filePath)).count i :=
        (perm_issuesOfFile issues i.filePath).count_eq i
      _ = issues.count i := hown issues

/-! ## The order of a scan -/

/-- In one file the order of a scan is the order of a section. -/
theorem inOrder_eq_placedBefore (h : i.filePath = j.filePath) :
    inOrder i j = placedBefore i j := by
  rw [inOrder, if_neg (fun hne => hne h)]
  rfl

/-- What is in order is not moved within a file. -/
theorem issuesOfFile_of_inOrder (h : issues.Pairwise fun a b => inOrder a b = true)
    (path : String) : issuesOfFile issues path = issues.filter (·.filePath == path) := by
  refine List.mergeSort_of_pairwise ((h.filter _).imp_of_mem fun {a b} ha hb hab => ?_)
  have ha : a.filePath = path := beq_iff_eq.1 (List.mem_filter.1 ha).2
  have hb : b.filePath = path := beq_iff_eq.1 (List.mem_filter.1 hb).2
  rwa [← inOrder_eq_placedBefore (ha.trans hb.symm)]

/-- **The sections of issues in order show them in that order.** -/
theorem flatMap_sectionsOf_of_inOrder (h : issues.Pairwise fun a b => inOrder a b = true) :
    (sectionsOf issues).flatMap (·.issues) = issues := by
  have hsections := sectioned_sectionsOf issues
  have hsorted : ((sectionsOf issues).flatMap (·.issues)).Pairwise fun a b =>
      inOrder a b = true := by
    rw [List.pairwise_flatMap]
    constructor
    · intro s hs
      obtain ⟨path, -, rfl⟩ := List.mem_map.1 hs
      rw [issuesOfFile_of_inOrder h]
      exact h.filter _
    · refine (List.pairwise_map.1 hsections.increasing).imp_of_mem fun hs ht hlt i hi j hj => ?_
      rw [← hsections.own _ hs i hi, ← hsections.own _ ht j hj] at hlt
      exact Scan.inOrder_iff.2 (.inl hlt)
  refine Scan.eq_of_sorted Scan.inOrder_total hsorted h fun i => ?_
  -- what stands at one place is in one file
  have hfile : ∀ j, ties inOrder i j = true → (j.filePath == i.filePath) = true :=
    fun j hj => beq_iff_eq.2 (Scan.filePath_of_ties hj)
  rw [← Scan.filter_ties_of_keeps hfile, filter_sectionsOf, issuesOfFile_of_inOrder h,
    Scan.filter_ties_of_keeps hfile]

/-- The issues of a scan are in order. -/
theorem pairwise_of_result {disk : Disk} {machine : External.Machine}
    {p : Scan.Plan} {coverage : Option Coverage} {result : ScanResult}
    (h : (Scan.runWithin disk machine p coverage).result = .ok result) :
    result.issues.Pairwise fun a b => inOrder a b = true := by
  have hrun := Scan.run_of_runWithin h
  obtain ⟨tree, engine, hroot, hengine⟩ := Scan.exists_engine_of_result hrun
  rw [Scan.issues_of_result hroot hengine hrun]
  exact Scan.pairwise_dedupe _

/-- **All formats of reports show the same findings.** The report for readers consists of sections
that show every issue once, under the one header of its file, which counts the issues there; the
other formats list the issues in the order of the result. For the result of a scan this is the order
of the lines in the report for readers, too. -/
theorem formats_show_same_findings (result : ScanResult) :
    ∃ sections : List Section, pretty result = "\n".intercalate
        (opening result ++ sections.flatMap (·.lines result.issues)) ∧
      Sectioned result.issues sections ∧
      (data result).get? "issues" = some (.arr (result.issues.map issueValue)) ∧
      entries? (sarif result) = some (result.issues.map entryOf) ∧
      ∀ disk machine plan coverage,
        (Scan.runWithin disk machine plan coverage).result = .ok result →
        issues? (data result) = some (sections.flatMap (·.issues)) ∧
          entries? (sarif result) = some ((sections.flatMap (·.issues)).map entryOf) := by
  refine ⟨sectionsOf result.issues, pretty_eq result, sectioned_sectionsOf result.issues, rfl,
    entries?_sarif result, fun disk machine plan coverage h => ?_⟩
  rw [flatMap_sectionsOf_of_inOrder (pairwise_of_result h)]
  exact ⟨mapM_issue? (Scan.rank?_of_result h), entries?_sarif result⟩

/-- A machine whose scanner reports two findings of one rule at one place. -/
def echoMachine : External.Machine where
  reply := { output := "\x7b\"results\": [" ++ ", ".intercalate (["write", "read"].map fun text =>
    "\x7b\"check_id\": \"acl\", \"path\": \"main.tf\", \"extra\": \x7b\"message\": \"" ++ text ++
    "\"\x7d\x7d") ++ "]\x7d" }

/-- A scan with that scanner. -/
def echoPlan : Scan.Plan := { Scan.sourcePlan with engine := "semgrep" }

/-- What it finds. -/
def echoIssue (message : String) : Issue :=
  ⟨"SG:acl", "acl", .medium, message, "main.tf", 1, 1⟩

/-- Two findings that no order of places tells apart are shown as they were found, in all
formats. -/
theorem formats_show_same_echoes :
    ∃ (r : ScanResult) (sections : List Section),
      (Scan.runWithin Scan.bucketDisk echoMachine echoPlan none).result = .ok r ∧
      pretty r = "\n".intercalate (opening r ++ sections.flatMap (·.lines r.issues)) ∧
      sections.flatMap (·.issues) = [echoIssue "write", echoIssue "read"] ∧
      issues? (data r) = some [echoIssue "write", echoIssue "read"] ∧
      entries? (sarif r) = some [entryOf (echoIssue "write"), entryOf (echoIssue "read")] := by
  have hfound : (Scan.externalFindings Scan.bucketDisk echoMachine echoPlan
      Scan.bucketDisk.tree).toOption =
        some [("main.tf", [echoIssue "write", echoIssue "read"])] := by decide +kernel
  obtain ⟨r, hr, hissues⟩ := Scan.exists_result_external (p := echoPlan) rfl (by decide)
    (by decide +kernel) hfound
  replace hissues : r.issues = [echoIssue "write", echoIssue "read"] :=
    hissues.trans (Scan.dedupe_pair (by decide) (by decide))
  obtain ⟨sections, htext, -, hjson, hsarif, horder⟩ := formats_show_same_findings r
  obtain ⟨hlisted, -⟩ := horder _ _ _ _ hr
  have hread : issues? (data r) = some r.issues := mapM_issue? (Scan.rank?_of_result hr)
  have hshown := Option.some.inj (hlisted.symm.trans hread)
  rw [hissues] at hread hsarif hshown
  exact ⟨r, sections, hr, htext, hshown, hread, hsarif⟩

end CodeAudit.Report
