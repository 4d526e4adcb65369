import CodeAudit.Proofs.Disk.Naming
import CodeAudit.Proofs.Scan.Targets

/-!
# Choosing issues before and after a scan

Rules are selected and disabled, and lines silenced, file by file and before the issues are put
together. A plan could as well have reported everything and chosen from the result
(`run_chooses_from_everything`): what decides about an issue (`Plan.keeps`) is its rule, its line
and the file that it names, which issues that cannot be told apart have in common. The issue of a
file that cannot be read is not chosen from at all.
-/

namespace CodeAudit.Scan

variable {c : Choice} {root : Path} {tree : FileTree} {p : Plan} {t : Target}

/-! ## The files that issues name -/

/-- The file that a path in an issue names: the one that is scanned, or one in the folder that
is. -/
def namedFile? (shown : String) : FileTree → Option File
  | .file f => some f
  | .folder entries => (FileTree.folder entries).fileAt? (Path.ofString shown).parts

/-- **A file is found under the path by which it is shown.** -/
theorem namedFile?_shown (hproper : tree.Proper) (ht : t ∈ targets c root tree) :
    namedFile? t.shown tree = some t.file := by
  cases tree with
  | file f =>
    rw [targets] at ht
    split at ht
    · obtain rfl := List.mem_singleton.1 ht
      rfl
    · exact absurd ht List.not_mem_nil
  | folder entries =>
    rw [targets_folder] at ht
    obtain ⟨⟨names, f⟩, hx, rfl⟩ := List.mem_map.1 ht
    obtain ⟨hfile, -⟩ := ((scanOrder_taken hproper).mem_iff names f).1 hx
    show (FileTree.folder entries).fileAt?
      (Path.ofString (Path.toString ⟨.relative, names⟩)).parts = some f
    rw [Path.parts_ofString_toString (FileTree.isName_of_fileAt? hproper hfile), hfile]

/-! ## What a plan keeps -/

/-- A plan that reports everything. -/
def Plan.unfiltered (p : Plan) : Plan :=
  { p with enabledRules := none, disabledRules := [], inlineIgnore := false }

/-- **Whether a plan keeps an issue of a tree.** One of a file that cannot be read is always kept;
another one if its rule is not disabled, is among those that are enabled, and is not silenced on the
issue's line in the file that the issue names. -/
def Plan.keeps (p : Plan) (tree : FileTree) (i : Issue) : Bool :=
  i.ruleId == Catalogue.unreadable.id ||
    (!isMeant (p.disabledRules.map Security.upperName) i.ruleId &&
      p.enabledRules.all (fun names => isMeant (names.map Security.upperName) i.ruleId) &&
      !(p.inlineIgnore && (namedFile? i.filePath tree).any fun f =>
        isSilenced (silencedLines (textOf f.bytes)) i))

/-- Issues that cannot be told apart are kept together. -/
theorem respectsSame_keeps (p : Plan) (tree : FileTree) : RespectsSame (p.keeps tree) := by
  intro i j hsame
  obtain ⟨hfile, hrule, hline, -⟩ := Fingerprint.same_iff.1 hsame
  replace hfile : i.filePath = j.filePath := hfile
  replace hrule : i.ruleId = j.ruleId := hrule
  replace hline : i.line.value = j.line.value := hline
  simp only [Plan.keeps, isSilenced, hfile, hrule, hline]

/-- A plan that reports everything allows every rule. -/
theorem allow_unfiltered (hsecurity : p.securityOnly = false) (rule : String) :
    p.unfiltered.checkRules.allow rule = true := by
  have hrules : p.unfiltered.checkRules = ⟨none, []⟩ := by
    simp only [Plan.checkRules, Plan.unfiltered, Security.enabledRules, hsecurity]
    rfl
  rw [hrules]
  simp [Rules.allow, isMeant]

/-- The rules of a plan are those that are not disabled and are among the enabled ones. -/
theorem allow_checkRules (hsecurity : p.securityOnly = false) (hnames : p.enabledRules ≠ some [])
    (rule : String) : p.checkRules.allow rule =
      (!isMeant (p.disabledRules.map Security.upperName) rule &&
        p.enabledRules.all fun names => isMeant (names.map Security.upperName) rule) := by
  have henabled : p.checkRules.enabled = selection? p.enabledRules := by
    simp only [Plan.checkRules, Security.enabledRules, hsecurity]
    rfl
  rw [Rules.allow, henabled]
  congr 1
  match hsome : p.enabledRules with
  | none => rfl
  | some [] => exact absurd hsome hnames
  | some (first :: rest) => rfl

/-- The issues of a file that cannot be read. -/
theorem targetIssues_of_unreadable (p : Plan) (hread : t.file.readable = false) :
    targetIssues p t = [unreadable t] := by
  unfold targetIssues
  rw [hread]
  rfl

/-- No check reports that a file cannot be read. -/
theorem ruleId_ne_unreadable {f : SourceFile} {i : Issue} (h : i ∈ Checks.check f) :
    i.ruleId ≠ Catalogue.unreadable.id := by
  have hother : ∀ r ∈ Catalogue.checks, r.id ≠ Catalogue.unreadable.id := by decide
  obtain ⟨r, hr, hid⟩ := exists_rule_of_mem_check h
  exact hid ▸ hother r hr

/-- **The issues of a file are those that its plan keeps of all that are found in it.** -/
theorem targetIssues_eq_filter (hproper : tree.Proper) (hsecurity : p.securityOnly = false)
    (hnames : p.enabledRules ≠ some []) (ht : t ∈ targets c root tree) :
    targetIssues p t = (targetIssues p.unfiltered t).filter (p.keeps tree) := by
  cases hread : t.file.readable with
  | false =>
    have hkeeps : p.keeps tree (unreadable t) = true := by
      simp [Plan.keeps, unreadable, RuleInfo.issue]
    rw [targetIssues_of_unreadable p hread, targetIssues_of_unreadable p.unfiltered hread,
      List.filter_cons_of_pos hkeeps, List.filter_nil]
  | true =>
    have hsilenced : p.unfiltered.silencedIn t.file = [] := rfl
    rw [targetIssues_of_readable p hread, targetIssues_of_readable p.unfiltered hread, hsilenced,
      kept, kept, List.filter_filter]
    refine List.filter_congr fun i hi => ?_
    obtain ⟨found, hfound, rfl⟩ := List.mem_map.1 hi
    have hrule : (found.ruleId == Catalogue.unreadable.id) = false :=
      beq_eq_false_iff_ne.2 (ruleId_ne_unreadable hfound)
    have hlines : isSilenced (p.silencedIn t.file) { found with filePath := t.shown } =
        (p.inlineIgnore && isSilenced (silencedLines (textOf t.file.bytes))
          { found with filePath := t.shown }) := by
      unfold Plan.silencedIn
      cases p.inlineIgnore <;> rfl
    have hnone : isSilenced [] { found with filePath := t.shown } = false := rfl
    simp only [Plan.keeps, hrule, namedFile?_shown hproper ht, Option.any_some, hlines, hnone,
      allow_unfiltered hsecurity, allow_checkRules hsecurity hnames, Bool.false_or, Bool.not_false,
      Bool.and_true]

/-! ## The result of a scan -/

/-- **What is chosen file by file can be chosen from the result.** -/
theorem resultOf_eq_map {p' : Plan} {keep : Issue → Bool} {found : List Target}
    {stack : Stack} {depth : Nat} {coverage : Option Coverage} (hkeep : RespectsSame keep)
    (h : ∀ t ∈ found, targetIssues p t = (targetIssues p' t).filter keep) :
    resultOf stack depth p found coverage = (resultOf stack depth p' found coverage).map fun all =>
      { all with issues := all.issues.filter keep } := by
  have hissues : dedupe (found.flatMap (targetIssues p)) =
      (dedupe (found.flatMap (targetIssues p'))).filter keep := by
    rw [← dedupe_filter hkeep, List.filter_flatMap, List.flatMap_congr h]
  unfold resultOf
  rw [hissues]
  split
  · rfl
  · cases firstOverflow? stack found with
    | none => rfl
    | some x => rfl

/-- **To choose rules and to heed comments in a scan is to choose from what it finds.** The chosen
issues come in the same order and unchanged, and the number of files is the same; and a scan that
the stack stops is stopped in either case. -/
theorem run_chooses_from_everything {disk : Disk} (hproper : tree.Proper)
    (hroot : disk.get? (disk.absolute p.root) = some tree)
    (hengine : Engine.ofName? p.engine = some .builtIn) (hsecurity : p.securityOnly = false)
    (hnames : p.enabledRules ≠ some []) (machine : External.Machine)
    (coverage : Option Coverage) :
    (runWithin disk machine p coverage).result =
      (runWithin disk machine p.unfiltered coverage).result.map fun all =>
        { all with issues := all.issues.filter (p.keeps tree) } := by
  have hall : (runWithin disk machine p.unfiltered coverage).result =
      resultOf machine.stack (p.choice.depth (disk.absolute p.root) tree) p.unfiltered
        (targets p.choice (disk.absolute p.root) tree) coverage :=
    result_runWithin (p := p.unfiltered) hroot hengine
  rw [hall, result_runWithin hroot hengine]
  refine resultOf_eq_map (respectsSame_keeps p tree) fun t ht => ?_
  exact targetIssues_eq_filter hproper hsecurity hnames ht

/-- A file with a work item on a line that a comment silences. -/
def silencedItem : File :=
  ⟨"# TODO supersonar:ignore SS004".toList.map fun c => c.val.toUInt8, true⟩

/-- A plan that enables the rule of the work item, for source alone. -/
def workItemPlan : Plan :=
  { sourcePlan with
    choice := { sourcePlan.choice with filenames := [] }
    enabledRules := some ["ss004"] }

/-- The one issue of a project is found, and a comment on its line keeps it out of the result. -/
theorem run_chooses_no_silencedItem :
    ((runWithin (webDisk silencedItem) {} workItemPlan.unfiltered none).result.toOption.map
        fun r => r.issues.map (·.ruleId)) = some ["SS004"] ∧
    ∃ all r, (runWithin (webDisk silencedItem) {} workItemPlan.unfiltered none).result =
        .ok all ∧
      (runWithin (webDisk silencedItem) {} workItemPlan none).result = .ok r ∧
      r.issues = all.issues.filter (workItemPlan.keeps (webProject silencedItem)) ∧
      r.issues = [] := by
  have hnone : ((runWithin (webDisk silencedItem) {} workItemPlan none).result.toOption.map
      (·.issues)) = some [] := by
    decide +kernel
  refine ⟨by decide +kernel, ?_⟩
  obtain ⟨all, hall⟩ : ∃ all, (runWithin (webDisk silencedItem) {} workItemPlan.unfiltered
      none).result = .ok all :=
    exists_ok_of_isSome (by decide +kernel)
  have hchooses := @run_chooses_from_everything _ workItemPlan (webDisk silencedItem)
    (proper_webProject silencedItem) rfl (by decide) rfl (by decide) {} none
  rw [hall] at hchooses
  rw [hchooses] at hnone
  exact ⟨all, _, hall, hchooses, rfl, Option.some.inj hnone⟩

end CodeAudit.Scan
