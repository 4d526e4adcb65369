import CodeAudit.Proofs.Report.Files
import CodeAudit.Proofs.Scan.Hybrid
import CodeAudit.Proofs.Scan.Separation

/-!
# How many files a scan counts

A scan says how many files it has gone through, and its issues name files. With one engine the
second number never exceeds the first. With both engines the scan takes the larger of what the two
count, and not the number of files that either of them has seen: files in which only the external
scanner has found something are not added to those that the scan has chosen itself. So its issues
can name more files than it counts, and `issue_files_within_scanned_iff` says when they do.
-/

namespace CodeAudit.Scan

variable {disk : Disk} {machine : External.Machine} {p : Plan} {c : Choice}
  {root : Path} {coverage : Option Coverage} {tree : FileTree} {engine : Engine} {r : ScanResult}
  {issues : List Issue} {found : List (String × List Issue)} {file : String}

/-! ## The files that issues name -/

/-- Issues of the built-in checks name files that were chosen. -/
theorem filePath_mem_shown {chosen : List Target} :
    ∀ i ∈ chosen.flatMap (targetIssues p), i.filePath ∈ chosen.map (·.shown) := by
  intro i hi
  obtain ⟨t, ht, hi⟩ := List.mem_flatMap.1 hi
  exact List.mem_map.2 ⟨t, ht, (filePath_of_mem_targetIssues hi).symm⟩

/-- Findings that are kept name the paths under which they are listed. -/
theorem filePath_of_mem_externalFindings (h : externalFindings disk machine p tree = .ok found) :
    ∀ f ∈ found, ∀ i ∈ f.2, i.filePath = f.1 := by
  unfold externalFindings at h
  split at h
  next => exact absurd h (by simp)
  next issues _ =>
    split at h
    · exact absurd h (by simp)
    · obtain rfl := Except.ok.inj h
      intro f hf i hi
      obtain ⟨⟨path, named⟩, -, rfl⟩ := List.mem_map.1 hf
      obtain ⟨_, -, rfl⟩ := exists_of_mem_kept hi
      rfl

/-- **The external scanner counts the files that its findings name.** -/
theorem length_named (h : ∀ f ∈ found, ∀ i ∈ f.2, i.filePath = f.1) :
    ((found.filter fun f => !f.2.isEmpty).map (·.1)).eraseDups.length =
      (filesOf (found.flatMap (·.2))).length := by
  have hmem : ∀ file, file ∈ ((found.filter fun f => !f.2.isEmpty).map (·.1)).eraseDups ↔
      file ∈ filesOf (found.flatMap (·.2)) := by
    intro file
    rw [List.mem_eraseDups, List.mem_map, mem_filesOf]
    constructor
    · rintro ⟨f, hf, rfl⟩
      obtain ⟨hf, hsome⟩ := List.mem_filter.1 hf
      obtain ⟨i, hi⟩ := List.exists_mem_of_ne_nil f.2 (by simpa using hsome)
      exact ⟨i, List.mem_flatMap.2 ⟨f, hf, hi⟩, h f hf i hi⟩
    · rintro ⟨i, hi, rfl⟩
      obtain ⟨f, hf, hi⟩ := List.mem_flatMap.1 hi
      refine ⟨f, List.mem_filter.2 ⟨hf, ?_⟩, (h f hf i hi).symm⟩
      simpa using List.ne_nil_of_mem hi
  exact Nat.le_antisymm
    ((nodup_eraseDups _).length_le_of_subset fun file hfile => (hmem file).1 hfile)
    ((nodup_filesOf _).length_le_of_subset fun file hfile => (hmem file).2 hfile)

/-- The files of a scan are shown by paths of their own. -/
theorem nodup_shown (hproper : tree.Proper) : ((targets c root tree).map (·.shown)).Nodup := by
  cases tree with
  | file f =>
    rw [targets]
    split
    · exact List.nodup_singleton _
    · exact List.nodup_nil
  | folder entries =>
    have horder : ScanOrder c root (.folder entries) (taken c root (.folder entries)) :=
      scanOrder_taken hproper
    rw [targets_folder, List.map_map]
    refine List.Nodup.map_on ?_ horder.once.of_map
    rintro ⟨names, f⟩ hx ⟨names', f'⟩ hy hshown
    obtain ⟨hf, -⟩ := (horder.mem_iff _ _).1 hx
    obtain ⟨hf', -⟩ := (horder.mem_iff _ _).1 hy
    obtain rfl := (Path.toString_inj (FileTree.isName_of_fileAt? hproper hf)
      (FileTree.isName_of_fileAt? hproper hf')).1 hshown
    rw [Option.some.inj (hf.symm.trans hf')]

/-! ## One engine -/

/-- **The built-in checks name no more files than were chosen.** -/
theorem length_filesOf_builtIn (hroot : disk.get? (disk.absolute p.root) = some tree)
    (hengine : Engine.ofName? p.engine = some .builtIn)
    (hr : (run disk machine p coverage).result = .ok r) :
    ((filesOf r.issues).length : Int) ≤ r.filesScanned := by
  rw [run_builtIn hroot hengine] at hr
  obtain rfl := Except.ok.inj hr
  have hshown : ∀ i ∈ dedupe ((targets p.choice (disk.absolute p.root) tree).flatMap
      (targetIssues p)),
      i.filePath ∈ (targets p.choice (disk.absolute p.root) tree).map (·.shown) :=
    fun i hi => filePath_mem_shown i (mem_of_mem_dedupe hi)
  have hlength := length_filesOf_le_of_mem hshown
  rw [List.length_map] at hlength
  exact Int.ofNat_le.2 hlength

/-- The number of files is that of the engine that has seen more, or one where a single file is
scanned. -/
theorem le_filesWithExternal_iff {isFile : Bool} {chosen n : Nat}
    (h : ∀ f ∈ found, ∀ i ∈ f.2, i.filePath = f.1) :
    n ≤ filesWithExternal p root isFile chosen found ↔
      n ≤ chosen ∨ n ≤ (filesOf (found.flatMap (·.2))).length ∨
        (isFile = true ∧ p.choice.skips root = false ∧ n ≤ 1) := by
  unfold filesWithExternal
  dsimp only
  rw [length_named h]
  split
  next hfile =>
    rw [Bool.and_eq_true, Bool.not_eq_true'] at hfile
    simp only [hfile, true_and]
    omega
  next hfile =>
    rw [Bool.and_eq_true, Bool.not_eq_true', not_and] at hfile
    constructor
    · intro hle
      omega
    · rintro (hle | hle | ⟨hisFile, hskips, -⟩)
      · omega
      · omega
      · exact absurd hskips (hfile hisFile)

/-- **The external scanner alone names no more files than it counts.** -/
theorem length_filesOf_external (hroot : disk.get? (disk.absolute p.root) = some tree)
    (hengine : Engine.ofName? p.engine = some .external)
    (hr : (run disk machine p coverage).result = .ok r) :
    ((filesOf r.issues).length : Int) ≤ r.filesScanned := by
  obtain ⟨found, hfound, hissues, hfiles⟩ := exists_of_result_external hroot hengine rfl hr
  rw [hfiles, Int.ofNat_le, le_filesWithExternal_iff (filePath_of_mem_externalFindings hfound)]
  refine .inr (.inl (length_filesOf_le_of_mem fun i hi => ?_))
  rw [hissues] at hi
  exact mem_filesOf.2 ⟨i, mem_of_mem_dedupe hi, rfl⟩

/-! ## Both engines -/

/-- The files with issues that a scan has not chosen itself. -/
def unchosen (chosen : List Target) (issues : List Issue) : List String :=
  (filesOf issues).filter fun file => !(chosen.map (·.shown)).contains file

/-- The files without issues that a scan has chosen. -/
def clean (chosen : List Target) (issues : List Issue) : List Target :=
  chosen.filter fun t => !(filesOf issues).contains t.shown

/-- **Issues name no more files than were chosen** exactly if for each file that was not chosen
there is one that was and has none. -/
theorem length_filesOf_le_chosen_iff {chosen : List Target}
    (hnodup : (chosen.map (·.shown)).Nodup) :
    (filesOf issues).length ≤ chosen.length ↔
      (unchosen chosen issues).length ≤ (clean chosen issues).length := by
  have hclean : (clean chosen issues).length =
      ((chosen.map (·.shown)).filter fun n => !(filesOf issues).contains n).length := by
    rw [List.filter_map, List.length_map]
    rfl
  rw [hclean, unchosen, ← length_le_iff_of_nodup (nodup_filesOf issues) hnodup, List.length_map]

/-- In a scan with both engines the files of the external scanner are those with a marked issue. -/
theorem mem_filesOf_marked {own others : List Issue} (hown : ∀ i ∈ own, isMarked i = false)
    (hothers : ∀ i ∈ others, isMarked i = true) :
    file ∈ filesOf others ↔
      ∃ j ∈ dedupe (own ++ others), isMarked j = true ∧ j.filePath = file := by
  have hrule : RespectsSame isMarked :=
    respectsSame_rule fun rule => Security.externalMark.isPrefixOf rule.toList
  rw [mem_filesOf]
  constructor
  · rintro ⟨i, hi, rfl⟩
    obtain ⟨k, hk, hsame⟩ := exists_same_of_mem (List.mem_append_right own hi)
    exact ⟨k, hk, (hrule hsame).trans (hothers i hi), (Fingerprint.same_iff.1 hsame).1⟩
  · rintro ⟨j, hj, hmarked, hfile⟩
    rcases List.mem_append.1 (mem_of_mem_dedupe hj) with hj | hj
    · exact absurd hmarked (by simp [hown j hj])
    · exact ⟨j, hj, hfile⟩

/-- **With both engines the issues name no more files than are counted** exactly if they do not
beyond one of the two numbers that the engines count. -/
theorem length_filesOf_hybrid_iff (hproper : tree.Proper)
    (hroot : disk.get? (disk.absolute p.root) = some tree)
    (hengine : Engine.ofName? p.engine = some .hybrid)
    (hr : (run disk machine p coverage).result = .ok r) :
    ((filesOf r.issues).length : Int) ≤ r.filesScanned ↔
      (unchosen (targets p.choice (disk.absolute p.root) tree) r.issues).length ≤
          (clean (targets p.choice (disk.absolute p.root) tree) r.issues).length ∨
        ∀ i ∈ r.issues, ∃ j ∈ r.issues, isMarked j = true ∧ j.filePath = i.filePath := by
  obtain ⟨found, hfound, hissues, hfiles⟩ := exists_of_result_external hroot hengine rfl hr
  replace hissues : r.issues =
      dedupe ((targets p.choice (disk.absolute p.root) tree).flatMap (targetIssues p) ++
        found.flatMap (·.2)) := hissues
  have hmarked : ∀ file, file ∈ filesOf (found.flatMap (·.2)) ↔
      ∃ j ∈ r.issues, isMarked j = true ∧ j.filePath = file := by
    intro file
    rw [hissues]
    exact mem_filesOf_marked isMarked_of_mem_targetIssues (isMarked_of_mem_externalFindings hfound)
  -- the files of the external scanner are among all, so they are as many only if they are all
  have hall : (∀ i ∈ r.issues, ∃ j ∈ r.issues, isMarked j = true ∧ j.filePath = i.filePath) ↔
      (filesOf r.issues).length ≤ (filesOf (found.flatMap (·.2))).length := by
    constructor
    · intro h
      exact length_filesOf_le_of_mem fun i hi => (hmarked _).2 (h i hi)
    · intro hlength i hi
      have hsubset : filesOf (found.flatMap (·.2)) ⊆ filesOf r.issues := by
        intro file hfile
        obtain ⟨j, hj, -, hpath⟩ := (hmarked file).1 hfile
        exact mem_filesOf.2 ⟨j, hj, hpath⟩
      have hperm := (List.subperm_of_subset (nodup_filesOf _) hsubset).perm_of_length_le hlength
      exact (hmarked _).1 (hperm.mem_iff.2 (mem_filesOf.2 ⟨i, hi, rfl⟩))
  rw [hall, ← length_filesOf_le_chosen_iff (nodup_shown hproper), hfiles, Int.ofNat_le,
    le_filesWithExternal_iff (filePath_of_mem_externalFindings hfound)]
  constructor
  · rintro (h | h | ⟨-, -, hone⟩)
    · exact .inl h
    · exact .inr h
    · -- one file with issues is one of those that an engine has counted
      by_cases hfile : filesOf r.issues = []
      · exact .inr (by simp [hfile])
      obtain ⟨file, hfile⟩ := List.exists_mem_of_ne_nil _ hfile
      obtain ⟨i, hi, rfl⟩ := mem_filesOf.1 hfile
      rw [hissues] at hi
      rcases List.mem_append.1 (mem_of_mem_dedupe hi) with hi | hi
      · have hpos := List.length_pos_of_mem (filePath_mem_shown i hi)
        rw [List.length_map] at hpos
        exact .inl (by omega)
      · have hpos := List.length_pos_of_mem (mem_filesOf.2 ⟨i, hi, rfl⟩)
        exact .inr (by omega)
  · rintro (h | h)
    · exact .inl h
    · exact .inr (.inl h)

/-- **The issues of a scan name no more files than it counts**, unless it runs both engines. Then
they do exactly if for each file that the scan has not chosen there is one that it has and that has
no issues, or if the external scanner has found something in every file with issues. -/
theorem issue_files_within_scanned_iff (hproper : tree.Proper)
    (hroot : disk.get? (disk.absolute p.root) = some tree)
    (hr : (runWithin disk machine p coverage).result = .ok r) :
    ((filesOf r.issues).length : Int) ≤ r.filesScanned ↔
      (Engine.ofName? p.engine = some .hybrid →
        (unchosen (targets p.choice (disk.absolute p.root) tree) r.issues).length ≤
            (clean (targets p.choice (disk.absolute p.root) tree) r.issues).length ∨
          ∀ i ∈ r.issues, ∃ j ∈ r.issues, isMarked j = true ∧ j.filePath = i.filePath) := by
  replace hr := run_of_runWithin hr
  obtain ⟨-, engine, -, hengine⟩ := exists_engine_of_result hr
  cases engine with
  | builtIn =>
    exact iff_of_true (length_filesOf_builtIn hroot hengine hr)
      fun h => absurd (hengine.symm.trans h) (by simp)
  | external =>
    exact iff_of_true (length_filesOf_external hroot hengine hr)
      fun h => absurd (hengine.symm.trans h) (by simp)
  | hybrid =>
    rw [length_filesOf_hybrid_iff hproper hroot hengine hr]
    exact ⟨fun h _ => h, fun h => h hengine⟩

/-! A folder with a file that no scan chooses. -/

/-- Two issues in order are put together as they are. -/
theorem dedupe_pair {i j : Issue} (hother : i.fingerprint.same j.fingerprint = false)
    (horder : inOrder i j = true) : dedupe [i, j] = [i, j] := by
  have hgathered : [i, j].foldl addIssue [] = [i, j] := by simp [addIssue, hother]
  rw [dedupe, hgathered]
  exact List.mergeSort_of_pairwise (by simpa using horder)

/-- A file for a container build, and below it one that no scan chooses and an empty source file. -/
def bucketDisk : Disk where
  tree := .folder [("Dockerfile", .file ⟨[], true⟩),
    ("infra", .folder [("main.tf", .file ⟨[], true⟩),
      ("web", .folder [("app.py", .file ⟨[], true⟩)])])]
  current := ⟨.slash, []⟩

/-- A machine whose scanner reports one finding, in the file that no scan chooses. -/
def bucketMachine : External.Machine where
  reply := { output := "\x7b\"results\": [\x7b\"check_id\": \"open-bucket\", " ++
    "\"path\": \"infra/main.tf\", \"start\": \x7b\"line\": 1, \"col\": 1\x7d\x7d]\x7d" }

/-- A scan of the folder with both engines, for sources with the endings that are given. -/
def bucketPlan (extensions : List String) : Plan :=
  { sourcePlan with choice := { sourcePlan.choice with extensions }, engine := "hybrid" }

/-- What the built-in checks find there. -/
def containerIssue : Issue :=
  Catalogue.dockerRoot.issue "Dockerfile" 1 1
    "No USER instruction found; container likely runs as root by default."

/-- What the external scanner finds there. -/
def bucketIssue : Issue :=
  ⟨"SG:open-bucket", "open-bucket", .medium, "open-bucket", "infra/main.tf", 1, 1⟩

/-- The scan reports both, whether the source file is chosen or not, and counts what is chosen. -/
theorem exists_result_bucket {extensions : List String} (h : extensions ∈ [[], ["py"]]) :
    ∃ r, (runWithin bucketDisk bucketMachine (bucketPlan extensions) none).result = .ok r ∧
      r.issues = [containerIssue, bucketIssue] ∧
      r.filesScanned = (targets (bucketPlan extensions).choice ⟨.slash, []⟩
        bucketDisk.tree).length := by
  have hreturns : ∀ e ∈ [[], ["py"]], (runWithin bucketDisk bucketMachine (bucketPlan e)
      none).result.toOption.isSome = true := by decide +kernel
  have hown : ∀ e ∈ [[], ["py"]], (targets (bucketPlan e).choice ⟨.slash, []⟩
      bucketDisk.tree).flatMap (targetIssues (bucketPlan e)) = [containerIssue] := by
    decide +kernel
  have hothers : ∀ e ∈ [[], ["py"]], (externalFindings bucketDisk bucketMachine (bucketPlan e)
      bucketDisk.tree).toOption = some [("infra/main.tf", [bucketIssue])] := by decide +kernel
  have hfiles : ∀ e ∈ [[], ["py"]], filesWithExternal (bucketPlan e) ⟨.slash, []⟩ false
      (targets (bucketPlan e).choice ⟨.slash, []⟩ bucketDisk.tree).length
      [("infra/main.tf", [bucketIssue])] =
        (targets (bucketPlan e).choice ⟨.slash, []⟩ bucketDisk.tree).length := by decide +kernel
  have hroot : bucketDisk.get? (bucketDisk.absolute (bucketPlan extensions).root) =
      some bucketDisk.tree := by
    change bucketDisk.get? (bucketDisk.absolute sourcePlan.root) = some bucketDisk.tree
    rfl
  have hengine : Engine.ofName? (bucketPlan extensions).engine = some .hybrid := by
    change Engine.ofName? "hybrid" = some .hybrid
    decide
  obtain ⟨r, hr⟩ := exists_ok_of_isSome (hreturns extensions h)
  obtain ⟨found, hfound, hissues, hcount⟩ :=
    exists_of_result_external hroot hengine rfl (run_of_runWithin hr)
  have hlisted := hothers extensions h
  rw [hfound] at hlisted
  obtain rfl : found = [("infra/main.tf", [bucketIssue])] := Option.some.inj hlisted
  replace hissues : r.issues = dedupe ((targets (bucketPlan extensions).choice ⟨.slash, []⟩
      bucketDisk.tree).flatMap (targetIssues (bucketPlan extensions)) ++ [bucketIssue]) := hissues
  rw [hown extensions h] at hissues
  refine ⟨r, hr, hissues.trans (dedupe_pair (by decide) (by decide)), hcount.trans ?_⟩
  exact congrArg Nat.cast (hfiles extensions h)

/-- Where the source file is chosen, and nothing is found in it, the count has room for the file
that was not. -/
theorem issue_files_within_scanned_with_clean_file :
    ∃ r, (runWithin bucketDisk bucketMachine (bucketPlan ["py"]) none).result = .ok r ∧
      filesOf r.issues = ["Dockerfile", "infra/main.tf"] ∧
      ((filesOf r.issues).length : Int) ≤ r.filesScanned := by
  have hproper : bucketDisk.tree.Proper := by
    refine .folder (by decide) (by decide) fun e he => ?_
    rcases List.mem_cons.1 he with rfl | he
    · exact .file _
    obtain rfl := List.mem_singleton.1 he
    refine .folder (by decide) (by decide) fun e he => ?_
    rcases List.mem_cons.1 he with rfl | he
    · exact .file _
    obtain rfl := List.mem_singleton.1 he
    refine .folder (by decide) (by decide) fun e he => ?_
    obtain rfl := List.mem_singleton.1 he
    exact .file _
  obtain ⟨r, hr, hissues, -⟩ := @exists_result_bucket ["py"] (by decide)
  have hfiles : filesOf r.issues = ["Dockerfile", "infra/main.tf"] := by
    rw [hissues]
    decide
  refine ⟨r, hr, hfiles, (issue_files_within_scanned_iff hproper rfl hr).2 fun _ => .inl ?_⟩
  rw [unchosen, clean, hfiles]
  decide +kernel

/-- **Where it is not chosen, two files have issues and one is counted.** -/
theorem issue_files_exceed_scanned :
    ∃ r, (runWithin bucketDisk bucketMachine (bucketPlan []) none).result = .ok r ∧
      filesOf r.issues = ["Dockerfile", "infra/main.tf"] ∧ r.filesScanned = 1 := by
  obtain ⟨r, hr, hissues, hcount⟩ := @exists_result_bucket [] (by decide)
  refine ⟨r, hr, ?_, hcount.trans ?_⟩
  · rw [hissues]
    decide
  · decide +kernel

end CodeAudit.Scan
