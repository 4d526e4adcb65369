import CodeAudit.Proofs.Scan.Selecting

/-!
# Files do not interfere

All issues of a scan go through one list, are put together there and sorted. Still each file has its
own: an issue names the file that it was found in, by a path that no other file has, and issues of
different files are neither taken for each other nor reordered. So a change of one file leaves the
issues of all others as they are (`files_do_not_interfere`).
-/

namespace CodeAudit.Scan

variable {c : Choice} {root : Path} {p : Plan} {t : Target} {i : Issue}

/-! ## The issues of some files -/

/-- The issues of a file name the path by which it is shown. -/
theorem filePath_of_mem_targetIssues (h : i ∈ targetIssues p t) : i.filePath = t.shown := by
  cases hread : t.file.readable with
  | false =>
    rw [targetIssues_of_unreadable p hread] at h
    obtain rfl := List.mem_singleton.1 h
    rfl
  | true =>
    rw [targetIssues_of_readable p hread, kept] at h
    obtain ⟨found, -, rfl⟩ := List.mem_map.1 (List.mem_filter.1 h).1
    rfl

/-- A choice by path does not tell issues apart that are the same. -/
theorem respectsSame_filePath (keep : String → Bool) : RespectsSame fun i => keep i.filePath := by
  intro i j h
  exact congrArg keep (Fingerprint.same_iff.1 h).1

/-- **The issues under some paths are those of the files that are shown by them.** -/
theorem filter_dedupe_targetIssues (keep : String → Bool) (found : List Target) :
    (dedupe (found.flatMap (targetIssues p))).filter (fun i => keep i.filePath) =
      dedupe ((found.filter fun t => keep t.shown).flatMap (targetIssues p)) := by
  rw [← dedupe_filter (respectsSame_filePath keep)]
  congr 1
  induction found with
  | nil => rfl
  | cons t found ih =>
    have hown : ∀ i ∈ targetIssues p t, keep i.filePath = keep t.shown :=
      fun i hi => congrArg keep (filePath_of_mem_targetIssues hi)
    rw [List.flatMap_cons, List.filter_append, ih, List.filter_congr hown, List.filter_cons]
    cases keep t.shown with
    | true => simp
    | false => simp

/-- A single issue is put together with no other. -/
theorem dedupe_singleton (i : Issue) : dedupe [i] = [i] := by
  simp [dedupe, addIssue]

/-! ## One file and the others -/

variable {entries entries' : List (String × FileTree)} {place : List String} {f : File}

/-- **The issues under a path are those of the file at its place**, and all other issues those of
the other files: `keep` says which of both to take. -/
theorem filter_issues_at (hproper : (FileTree.folder entries).Proper)
    (hnames : ∀ n ∈ place, FileTree.isName n = true) (keep : Bool → Bool) :
    (dedupe ((targets c root (.folder entries)).flatMap (targetIssues p))).filter
        (fun i => keep (i.filePath == Path.toString ⟨.relative, place⟩)) =
      dedupe ((((taken c root (.folder entries)).filter fun x => keep (x.1 == place)).map
        (Target.at root)).flatMap (targetIssues p)) := by
  rw [filter_dedupe_targetIssues fun shown => keep (shown == Path.toString ⟨.relative, place⟩),
    targets_folder, List.filter_map]
  congr 3
  refine List.filter_congr fun x hx => ?_
  obtain ⟨hx, -⟩ := ((scanOrder_taken hproper).mem_iff x.1 x.2).1 hx
  -- no other file is shown by the same path
  have hinj := Path.toString_inj (FileTree.isName_of_fileAt? hproper hx) hnames
  have hshown : (Target.at root x).shown = Path.toString ⟨.relative, x.1⟩ := rfl
  simp only [Function.comp_apply, hshown, beq_eq_decide, hinj]

/-- Trees that agree elsewhere have the same wanted files elsewhere. -/
theorem filter_taken_elsewhere (hproper : (FileTree.folder entries).Proper)
    (hproper' : (FileTree.folder entries').Proper)
    (hsame : ∀ names, names ≠ place →
      (FileTree.folder entries').fileAt? names = (FileTree.folder entries).fileAt? names) :
    ((taken c root (.folder entries)).filter fun x => !(x.1 == place)) =
      (taken c root (.folder entries')).filter fun x => !(x.1 == place) := by
  have horder : ScanOrder c root _ (taken c root (.folder entries)) := scanOrder_taken hproper
  have horder' : ScanOrder c root _ (taken c root (.folder entries')) := scanOrder_taken hproper'
  refine FileTree.eq_of_earlier (horder.ordered.filter _) (horder'.ordered.filter _) ?_
  rintro ⟨names, g⟩
  simp only [List.mem_filter, horder.mem_iff, horder'.mem_iff, Bool.not_eq_true',
    beq_eq_false_iff_ne]
  refine and_congr_left fun hne => ?_
  rw [hsame names hne]

/-- At a place there is one wanted file at most. -/
theorem filter_taken_at (hproper : (FileTree.folder entries).Proper)
    (hmem : (place, f) ∈ taken c root (.folder entries)) :
    ((taken c root (.folder entries)).filter fun x => x.1 == place) = [(place, f)] := by
  have horder : ScanOrder c root _ (taken c root (.folder entries)) := scanOrder_taken hproper
  refine FileTree.eq_of_earlier (horder.ordered.filter _) (List.pairwise_singleton _ _) ?_
  rintro ⟨names, g⟩
  rw [List.mem_filter, List.mem_singleton, beq_iff_eq]
  constructor
  · rintro ⟨hg, rfl⟩
    obtain ⟨hg, -⟩ := (horder.mem_iff _ _).1 hg
    obtain ⟨hf, -⟩ := (horder.mem_iff _ _).1 hmem
    rw [Option.some.inj (hg.symm.trans hf)]
  · rintro ⟨⟩
    exact ⟨hmem, rfl⟩

/-- **A change of one file leaves the issues of all others as they are**: two scans with the same
plan, of folders that agree in every other file, report the same about the others. A file that
cannot be read gets one issue, which says so whatever the rules of the plan are. -/
theorem files_do_not_interfere {disk disk' : Disk} {machine machine' : External.Machine}
    {coverage coverage' : Option Coverage} {r r' : ScanResult}
    (hproper : (FileTree.folder entries).Proper) (hproper' : (FileTree.folder entries').Proper)
    (hfile : (FileTree.folder entries).fileAt? place = some f)
    (hsame : ∀ names, names ≠ place →
      (FileTree.folder entries').fileAt? names = (FileTree.folder entries).fileAt? names)
    (hroot : disk.get? (disk.absolute p.root) = some (.folder entries))
    (hroot' : disk'.get? (disk'.absolute p.root) = some (.folder entries'))
    (hplace : disk'.absolute p.root = disk.absolute p.root)
    (hengine : Engine.ofName? p.engine = some .builtIn)
    (hr : (runWithin disk machine p coverage).result = .ok r)
    (hr' : (runWithin disk' machine' p coverage').result = .ok r') :
    (r.issues.filter fun i => !(i.filePath == Path.toString ⟨.relative, place⟩)) =
      (r'.issues.filter fun i => !(i.filePath == Path.toString ⟨.relative, place⟩)) ∧
    (f.readable = false →
      Target.at (disk.absolute p.root) (place, f) ∈
        targets p.choice (disk.absolute p.root) (.folder entries) →
      ∃ message, (r.issues.filter fun i => i.filePath == Path.toString ⟨.relative, place⟩) =
        [⟨"SS900", "File scan error", .medium, message, Path.toString ⟨.relative, place⟩, 1,
          1⟩]) := by
  have hnames := FileTree.isName_of_fileAt? hproper hfile
  obtain ⟨-, rfl⟩ := of_result_runWithin hroot hengine hr
  obtain ⟨-, rfl⟩ := of_result_runWithin hroot' hengine hr'
  constructor
  · rw [filter_issues_at hproper hnames (!·), filter_issues_at hproper' hnames (!·), hplace,
      filter_taken_elsewhere hproper hproper' hsame]
  · intro hread htarget
    rw [targets_folder] at htarget
    have hmem := (List.mem_map_of_injective (Target.at_injective _)).1 htarget
    have hone : dedupe ([Target.at (disk.absolute p.root) (place, f)].flatMap (targetIssues p)) =
        [unreadable (Target.at (disk.absolute p.root) (place, f))] := by
      rw [List.flatMap_singleton, targetIssues_of_unreadable p hread, dedupe_singleton]
    have hissues :=
      @filter_issues_at p.choice (disk.absolute p.root) p entries place hproper hnames id
    simp only [id] at hissues
    rw [filter_taken_at hproper hmem, List.map_singleton, hone] at hissues
    exact ⟨_, hissues⟩

/-- Where a file of a project can no longer be read, the project's other issues stay. -/
theorem files_do_not_interfere_in_webProject :
    ∃ r r', (runWithin (webDisk ⟨[], false⟩) {} sourcePlan none).result = .ok r ∧
      (runWithin (webDisk silencedItem) {} sourcePlan none).result = .ok r' ∧
      (r.issues.filter fun i => !(i.filePath == "web/app.py")) =
        (r'.issues.filter fun i => !(i.filePath == "web/app.py")) ∧
      ∃ message, (r.issues.filter fun i => i.filePath == "web/app.py") =
        [⟨"SS900", "File scan error", .medium, message, "web/app.py", 1, 1⟩] := by
  have hreturns : ∀ app ∈ [⟨[], false⟩, silencedItem],
      (runWithin (webDisk app) {} sourcePlan none).result.toOption.isSome = true := by
    decide +kernel
  have hsame : ∀ names, names ≠ ["web", "app.py"] →
      (webProject silencedItem).fileAt? names = (webProject ⟨[], false⟩).fileAt? names := by
    have hroom : FileTree.Room (.file silencedItem) (webProject ⟨[], false⟩) ["web", "app.py"] :=
      FileTree.room_of_file rfl
    intro names hne
    exact (FileTree.change_put (fun _ => rfl) hroom).files hne
  obtain ⟨r, hr⟩ := exists_ok_of_isSome (hreturns _ List.mem_cons_self)
  obtain ⟨r', hr'⟩ := exists_ok_of_isSome (hreturns _ (List.mem_cons_of_mem _ List.mem_cons_self))
  have hplace : (webDisk silencedItem).absolute sourcePlan.root =
      (webDisk ⟨[], false⟩).absolute sourcePlan.root := rfl
  obtain ⟨hothers, hown⟩ := files_do_not_interfere (proper_webProject ⟨[], false⟩)
    (proper_webProject silencedItem) rfl hsame rfl rfl hplace (by decide) hr hr'
  exact ⟨r, r', hr, hr', hothers, hown rfl (by decide +kernel)⟩

end CodeAudit.Scan
