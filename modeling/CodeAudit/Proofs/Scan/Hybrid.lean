import CodeAudit.Proofs.External.Findings
import CodeAudit.Proofs.Scan.Gathering
import CodeAudit.Proofs.Scan.Narrowing
import CodeAudit.Proofs.Scan.Selecting

/-!
# Both engines at once

A scan with both engines is the two scans put together (`hybrid_merges_both_engines`). It returns
if both of them do, and nothing gets lost between them: the rules of the external scanner carry a
mark that no built-in rule has, so no issue of one passes for an issue of the other.
-/

namespace CodeAudit

open Security (externalMark)

/-! ## Where issues come from -/

namespace Scan

/-- Issues that are kept are shown under another path, and else as they were found. -/
theorem exists_of_mem_kept {rules : Rules} {silenced : List (Nat × List String)} {shown : String}
    {issues : List Issue} {i : Issue} (h : i ∈ kept rules silenced shown issues) :
    ∃ found ∈ issues, i = { found with filePath := shown } := by
  obtain ⟨found, hfound, rfl⟩ := List.mem_map.1 (List.mem_filter.1 h).1
  exact ⟨found, hfound, rfl⟩

/-- **What is found in a file** is an issue of a rule of the catalogue. -/
theorem exists_rule_of_mem_targetIssues {p : Plan} {t : Target} {i : Issue}
    (h : i ∈ targetIssues p t) :
    ∃ r ∈ Catalogue.all, i.ruleId = r.id ∧ i.severity = r.severity := by
  cases hread : t.file.readable with
  | false =>
    rw [targetIssues_of_unreadable p hread] at h
    obtain rfl := List.mem_singleton.1 h
    exact ⟨Catalogue.unreadable, by decide, rfl, rfl⟩
  | true =>
    rw [targetIssues_of_readable p hread] at h
    obtain ⟨found, hfound, rfl⟩ := exists_of_mem_kept h
    obtain ⟨findings, hfindings⟩ :=
      Checks.exists_findings (SourceFile.of t.path (textOf t.file.bytes))
    have hself := hfindings (SourceFile.of t.path (textOf t.file.bytes)).path
    replace hself : Checks.check (SourceFile.of t.path (textOf t.file.bytes)) = _ := hself
    rw [hself] at hfound
    obtain ⟨x, -, rfl⟩ := List.mem_map.1 hfound
    exact ⟨x.rule, List.mem_append_left _ x.mem_rules, rfl, rfl⟩

/-- Findings that are kept are shown under other paths, and else as they were found. -/
theorem exists_of_mem_externalKept {disk : Disk} {p : Plan} {root : Path} {isFile : Bool}
    {issues : List Issue} {i : Issue}
    (h : i ∈ (externalKept disk p root isFile issues).flatMap (·.2)) :
    ∃ found ∈ issues, ∃ shown, i = { found with filePath := shown } := by
  obtain ⟨shown, hshown, hi⟩ := List.mem_flatMap.1 h
  obtain ⟨⟨path, named⟩, hnamed, rfl⟩ := List.mem_map.1 hshown
  obtain ⟨path', -, heq⟩ := List.mem_map.1 hnamed
  obtain ⟨rfl, rfl⟩ := Prod.mk.inj heq
  obtain ⟨found, hfound, hi⟩ := exists_of_mem_kept hi
  exact ⟨found, (List.mem_filter.1 hfound).1, _, hi⟩

/-! ## The scans -/

variable {disk : Disk} {machine : External.Machine} {p : Plan}
  {coverage : Option Coverage} {tree : FileTree} {engine : Engine} {own others : ScanResult}

/-- The findings of the external scanner that count in a scan of a tree, by the paths under which
they are shown. -/
def externalFindings (disk : Disk) (machine : External.Machine) (p : Plan) (tree : FileTree) :
    Except Fault (List (String × List Issue)) :=
  match (External.scan disk machine (disk.absolute p.root) p.external).2 with
  | .error f => .error (.external f)
  | .ok issues =>
    if hasNullPath p issues then .error (.external (.finding .nullInPath))
    else .ok (externalKept disk p (disk.absolute p.root) (!tree.isFolder) issues)

/-- They come from findings of the scanner. -/
theorem exists_of_mem_externalFindings {found : List (String × List Issue)} {i : Issue}
    (h : externalFindings disk machine p tree = .ok found) (hi : i ∈ found.flatMap (·.2)) :
    (∃ rule, i.ruleId = String.ofList externalMark ++ rule) ∧
      i.severity.rank?.isSome = true := by
  unfold externalFindings at h
  split at h
  next => exact absurd h (by simp)
  next issues hscan =>
    split at h
    · exact absurd h (by simp)
    · obtain rfl := Except.ok.inj h
      obtain ⟨j, hj, shown, rfl⟩ := exists_of_mem_externalKept hi
      obtain ⟨finding, members, rule, -, -, hrule, hseverity⟩ :=
        External.exists_tells_of_scan hscan j hj
      refine ⟨⟨_, hrule.trans (by rw [External.ofList_externalMark])⟩, ?_⟩
      have hranked : ∀ s ∈ [Severity.low, .medium, .high, .critical], s.rank?.isSome = true := by
        decide
      exact hranked _ hseverity

/-- **The result of a scan with the external scanner**, alone or with the built-in checks. -/
theorem result_external (hroot : disk.get? (disk.absolute p.root) = some tree)
    (hengine : Engine.ofName? p.engine = some engine) (hruns : engine.runsExternal = true) :
    (run disk machine p coverage).result = (externalFindings disk machine p tree).map fun found =>
      ⟨dedupe ((if engine.runsChecks then
          (targets p.choice (disk.absolute p.root) tree).flatMap (targetIssues p) else []) ++
          found.flatMap (·.2)),
        filesWithExternal p (disk.absolute p.root) (!tree.isFolder)
          (targets p.choice (disk.absolute p.root) tree).length found, coverage⟩ := by
  unfold run externalFindings
  simp only [hroot, hengine, hruns]
  cases External.scan disk machine (disk.absolute p.root) p.external with
  | mk calls reply =>
    cases reply with
    | error f => rfl
    | ok issues =>
      by_cases hnull : hasNullPath p issues = true
      · simp only [hnull, if_true]
        rfl
      · simp only [hnull]
        rfl

/-- The same on the stack that there is, if it has room for the folders and for the files that are
checked. -/
theorem runWithin_eq_run_of_checks (hroot : disk.get? (disk.absolute p.root) = some tree)
    (hengine : Engine.ofName? p.engine = some engine)
    (hfolders : p.choice.depth (disk.absolute p.root) tree ≤ machine.stack.folders)
    (hroom : engine.runsChecks = true →
      ∀ t ∈ targets p.choice (disk.absolute p.root) tree, ¬ t.TooDeep machine.stack) :
    runWithin disk machine p coverage = run disk machine p coverage := by
  unfold runWithin
  simp only [hroot, hengine, if_neg (Nat.not_lt.2 hfolders)]
  cases hchecks : engine.runsChecks with
  | false => rfl
  | true => simp only [if_true, firstOverflow?_eq_none_iff.2 (hroom hchecks)]

/-- **The external scanner alone**: a scan returns what counts of its findings, on any stack that
has room for the folders. -/
theorem exists_result_external {found : List (String × List Issue)}
    (hroot : disk.get? (disk.absolute p.root) = some tree)
    (hengine : Engine.ofName? p.engine = some .external)
    (hfolders : p.choice.depth (disk.absolute p.root) tree ≤ machine.stack.folders)
    (hfound : (externalFindings disk machine p tree).toOption = some found) :
    ∃ r, (runWithin disk machine p coverage).result = .ok r ∧
      r.issues = dedupe (found.flatMap (·.2)) := by
  have hwithin : runWithin disk machine p coverage = run disk machine p coverage :=
    runWithin_eq_run_of_checks hroot hengine hfolders fun hchecks => absurd hchecks (by decide)
  rw [hwithin, result_external hroot hengine rfl]
  cases hresult : externalFindings disk machine p tree with
  | error f =>
    rw [hresult] at hfound
    exact absurd hfound (by simp [Except.toOption])
  | ok findings =>
    rw [hresult] at hfound
    obtain rfl : findings = found := Option.some.inj hfound
    exact ⟨_, rfl, rfl⟩

/-- A scan that returns has something to scan. -/
theorem exists_root_of_result (h : (runWithin disk machine p coverage).result = .ok own) :
    ∃ tree, disk.get? (disk.absolute p.root) = some tree := by
  cases hroot : disk.get? (disk.absolute p.root) with
  | some tree => exact ⟨tree, rfl⟩
  | none =>
    unfold runWithin run at h
    simp only [hroot] at h
    exact absurd h (by simp)

/-- A scan that the stack does not stop has the result that it has on a larger one. -/
theorem run_of_runWithin {result : ScanResult}
    (h : (runWithin disk machine p coverage).result = .ok result) :
    (run disk machine p coverage).result = .ok result := by
  unfold runWithin at h
  dsimp only at h
  split at h
  · split at h
    · exact absurd h (by simp)
    · split at h
      · exact absurd h (by simp)
      · exact h
  · exact h

/-- A scan that returns has an engine. -/
theorem exists_engine_of_result {result : ScanResult}
    (h : (run disk machine p coverage).result = .ok result) :
    ∃ tree engine, disk.get? (disk.absolute p.root) = some tree ∧
      Engine.ofName? p.engine = some engine := by
  unfold run at h
  dsimp only at h
  split at h
  · exact absurd h (by simp)
  · exact absurd h (by simp)
  next tree engine hroot hengine => exact ⟨tree, engine, hroot, hengine⟩

/-- What the external scanner adds to a scan: its findings that are kept, if it runs. -/
def added (disk : Disk) (machine : External.Machine) (p : Plan) (tree : FileTree) : List Issue :=
  if (Engine.ofName? p.engine).any (·.runsExternal) then
    ((externalFindings disk machine p tree).toOption.getD []).flatMap (·.2)
  else []

/-- Only the built-in engine does without the external scanner. -/
theorem Engine.eq_builtIn {engine : Engine} (hruns : engine.runsExternal = false) :
    engine = .builtIn := by
  cases engine with
  | builtIn => rfl
  | external => exact absurd hruns (by decide)
  | hybrid => exact absurd hruns (by decide)

/-- What a scan with the external scanner is made of. -/
theorem exists_of_result_external {r : ScanResult}
    (hroot : disk.get? (disk.absolute p.root) = some tree)
    (hengine : Engine.ofName? p.engine = some engine) (hruns : engine.runsExternal = true)
    (hr : (run disk machine p coverage).result = .ok r) :
    ∃ found, externalFindings disk machine p tree = .ok found ∧
      r.issues = dedupe ((if engine.runsChecks then
          (targets p.choice (disk.absolute p.root) tree).flatMap (targetIssues p) else []) ++
          found.flatMap (·.2)) ∧
      r.filesScanned = (filesWithExternal p (disk.absolute p.root) (!tree.isFolder)
          (targets p.choice (disk.absolute p.root) tree).length found : Nat) := by
  rw [result_external hroot hengine hruns] at hr
  cases hfound : externalFindings disk machine p tree with
  | error f =>
    rw [hfound] at hr
    exact absurd hr (by simp [Except.map])
  | ok found =>
    rw [hfound] at hr
    obtain rfl := Except.ok.inj hr
    exact ⟨found, rfl, rfl, rfl⟩

/-- **The issues of a scan** are what the built-in checks find in the files that it has chosen, if
they run, and what the external scanner adds. -/
theorem issues_of_result {r : ScanResult} (hroot : disk.get? (disk.absolute p.root) = some tree)
    (hengine : Engine.ofName? p.engine = some engine)
    (hr : (run disk machine p coverage).result = .ok r) :
    r.issues = dedupe ((if engine.runsChecks then
      (targets p.choice (disk.absolute p.root) tree).flatMap (targetIssues p) else []) ++
      added disk machine p tree) := by
  unfold added
  rw [hengine, Option.any_some]
  cases hruns : engine.runsExternal with
  | false =>
    obtain rfl := Engine.eq_builtIn hruns
    rw [run_builtIn hroot hengine] at hr
    obtain rfl := Except.ok.inj hr
    exact congrArg dedupe (List.append_nil _).symm
  | true =>
    obtain ⟨found, hfound, hissues, -⟩ := exists_of_result_external hroot hengine hruns hr
    rw [hissues, hfound]
    rfl

/-- What it adds are findings of the scanner. -/
theorem exists_of_mem_added {i : Issue} (h : i ∈ added disk machine p tree) :
    ∃ found, externalFindings disk machine p tree = .ok found ∧ i ∈ found.flatMap (·.2) := by
  unfold added at h
  split at h
  · cases hfound : externalFindings disk machine p tree with
    | error f =>
      rw [hfound] at h
      exact absurd h List.not_mem_nil
    | ok found =>
      rw [hfound] at h
      exact ⟨found, rfl, h⟩
  · exact absurd h List.not_mem_nil

/-! ## Issues of two kinds -/

/-- Whether an issue is of a rule of the external scanner. -/
def isMarked (i : Issue) : Bool := externalMark.isPrefixOf i.ruleId.toList

/-- What the external scanner finds is marked. -/
theorem isMarked_of_mem_externalFindings {found : List (String × List Issue)}
    (h : externalFindings disk machine p tree = .ok found) :
    ∀ i ∈ found.flatMap (·.2), isMarked i = true := by
  intro i hi
  obtain ⟨⟨rule, hrule⟩, -⟩ := exists_of_mem_externalFindings h hi
  rw [isMarked, hrule, String.toList_append, String.toList_ofList]
  exact List.isPrefixOf_iff_prefix.2 (List.prefix_append _ _)

/-- So is what it adds to a scan. -/
theorem isMarked_of_mem_added : ∀ i ∈ added disk machine p tree, isMarked i = true := by
  intro i hi
  obtain ⟨found, hfound, hi⟩ := exists_of_mem_added hi
  exact isMarked_of_mem_externalFindings hfound i hi

/-- What the built-in checks find is not. -/
theorem isMarked_of_mem_targetIssues {found : List Target} :
    ∀ i ∈ found.flatMap (targetIssues p), isMarked i = false := by
  intro i hi
  obtain ⟨t, -, hi⟩ := List.mem_flatMap.1 hi
  obtain ⟨r, hr, hid, -⟩ := exists_rule_of_mem_targetIssues hi
  rw [isMarked, hid]
  exact (plainRule_of_mem hr).unmarked

/-- **Issues of two kinds are put together without loss**: each kind keeps its order, and of neither
is anything left out. -/
theorem dedupe_of_kinds {kind : Issue → Bool} (hkind : RespectsSame kind) {xs ys : List Issue}
    (hxs : ∀ i ∈ xs, kind i = false) (hys : ∀ i ∈ ys, kind i = true) :
    (dedupe xs).Sublist (dedupe (xs ++ ys)) ∧ (dedupe ys).Sublist (dedupe (xs ++ ys)) ∧
      (dedupe (xs ++ ys)).Perm (dedupe xs ++ dedupe ys) := by
  have hother : RespectsSame fun i => !kind i := fun h => congrArg not (hkind h)
  have hfirst : (dedupe (xs ++ ys)).filter (fun i => !kind i) = dedupe xs := by
    rw [← dedupe_filter hother, List.filter_append,
      List.filter_eq_self.2 fun i hi => by rw [hxs i hi, Bool.not_false],
      List.filter_eq_nil_iff.2 fun i hi => by simp [hys i hi], List.append_nil]
  have hsecond : (dedupe (xs ++ ys)).filter kind = dedupe ys := by
    rw [← dedupe_filter hkind, List.filter_append,
      List.filter_eq_nil_iff.2 fun i hi => by simp [hxs i hi],
      List.filter_eq_self.2 fun i hi => hys i hi, List.nil_append]
  refine ⟨hfirst ▸ List.filter_sublist, hsecond ▸ List.filter_sublist, ?_⟩
  have hboth := (List.filter_append_perm kind (dedupe (xs ++ ys))).symm
  rw [hfirst, hsecond] at hboth
  exact hboth.trans List.perm_append_comm

/-- **A scan with both engines puts together what each of them finds.** Where both return it
returns, no issue is lost or changed, and the number of files is that of the external scanner. -/
theorem hybrid_merges_both_engines {builtIn external hybrid : String}
    (hbuiltIn : Engine.ofName? builtIn = some .builtIn)
    (hexternal : Engine.ofName? external = some .external)
    (hhybrid : Engine.ofName? hybrid = some .hybrid)
    (hown : (runWithin disk machine { p with engine := builtIn } coverage).result = .ok own)
    (hothers : (runWithin disk machine { p with engine := external } coverage).result =
      .ok others) :
    ∃ both : ScanResult,
      (runWithin disk machine { p with engine := hybrid } coverage).result = .ok both ∧
      both.issues = dedupe (own.issues ++ others.issues) ∧
      both.issues.Perm (own.issues ++ others.issues) ∧
      own.issues.Sublist both.issues ∧ others.issues.Sublist both.issues ∧
      both.filesScanned = others.filesScanned := by
  obtain ⟨tree, hroot⟩ := exists_root_of_result hown
  replace hroot : disk.get? (disk.absolute p.root) = some tree := hroot
  obtain ⟨⟨hfolders, hroom⟩, rfl⟩ :=
    of_result_runWithin (p := { p with engine := builtIn }) hroot hbuiltIn hown
  have halone : Engine.external.runsChecks = true →
      ∀ t ∈ targets p.choice (disk.absolute p.root) tree, ¬ t.TooDeep machine.stack :=
    fun h => absurd h (by decide)
  rw [runWithin_eq_run_of_checks (p := { p with engine := external }) hroot hexternal hfolders
      halone, result_external (p := { p with engine := external }) hroot hexternal rfl] at hothers
  rw [runWithin_eq_run_of_checks (p := { p with engine := hybrid }) hroot hhybrid hfolders
      fun _ => hroom, result_external (p := { p with engine := hybrid }) hroot hhybrid rfl]
  -- the engine's name decides which parts run, and nothing in them
  replace hothers : (externalFindings disk machine p tree).map _ = .ok others := hothers
  show ∃ both, (externalFindings disk machine p tree).map _ = .ok both ∧ _
  cases hfound : externalFindings disk machine p tree with
  | error f =>
    rw [hfound] at hothers
    exact absurd hothers (by simp [Except.map])
  | ok found =>
    rw [hfound] at hothers
    obtain rfl := Except.ok.inj hothers
    have hmarked : RespectsSame isMarked :=
      respectsSame_rule fun rule => externalMark.isPrefixOf rule.toList
    obtain ⟨hfirst, hsecond, hperm⟩ := dedupe_of_kinds hmarked isMarked_of_mem_targetIssues
      (isMarked_of_mem_externalFindings hfound)
    exact ⟨_, rfl, (dedupe_append _ _).symm, hperm, hfirst, hsecond, rfl⟩

/-- A machine whose scanner reports one finding in the file for a container build. -/
def findingMachine : External.Machine where
  reply := { output := "\x7b\"results\": [\x7b\"check_id\": \"no-user\", " ++
    "\"path\": \"Dockerfile\", \"start\": \x7b\"line\": 1, \"col\": 1\x7d\x7d]\x7d" }

/-- A scan of the folder on that machine. -/
def withFinding (engine : String) : Except Fault ScanResult :=
  (runWithin containerDisk findingMachine { selecting [] with engine } none).result

/-- Each engine finds an issue of its own at one place in one file, and both find the two. -/
theorem hybrid_merges_findingMachine :
    ∃ own others both, withFinding "internal" = .ok own ∧ withFinding "semgrep" = .ok others ∧
      withFinding "hybrid" = .ok both ∧ own.issues.map (·.ruleId) = ["SS108"] ∧
      others.issues.map (·.ruleId) = ["SG:no-user"] ∧
      both.issues = dedupe (own.issues ++ others.issues) ∧
      (both.issues.map (·.ruleId)).Perm ["SS108", "SG:no-user"] ∧ both.filesScanned = 1 := by
  have hfirst : (withFinding "internal").toOption.map (fun r => r.issues.map (·.ruleId)) =
      some ["SS108"] := by decide +kernel
  have hsecond : (withFinding "semgrep").toOption.map
      (fun r => (r.issues.map (·.ruleId), r.filesScanned)) = some (["SG:no-user"], 1) := by
    decide +kernel
  obtain ⟨own, hown⟩ : ∃ own, withFinding "internal" = .ok own :=
    exists_ok_of_isSome (by decide +kernel)
  obtain ⟨others, hothers⟩ : ∃ others, withFinding "semgrep" = .ok others :=
    exists_ok_of_isSome (by decide +kernel)
  obtain ⟨both, hboth, hissues, hperm, -, -, hfiles⟩ :=
    @hybrid_merges_both_engines containerDisk findingMachine (selecting []) none own others
      "internal" "semgrep" "hybrid" (by decide) (by decide) (by decide) hown hothers
  rw [hown] at hfirst
  rw [hothers] at hsecond
  replace hfirst : own.issues.map (·.ruleId) = ["SS108"] := Option.some.inj hfirst
  obtain ⟨hsecond, hcount⟩ := Prod.mk.inj (Option.some.inj hsecond)
  have hrules := hperm.map (·.ruleId)
  rw [List.map_append, hfirst, hsecond] at hrules
  exact ⟨own, others, both, hown, hothers, hboth, hfirst, hsecond, hissues, hrules,
    hfiles.trans hcount⟩

end Scan

end CodeAudit
