import CodeAudit.Proofs.Scan.BuiltIn
import CodeAudit.Proofs.Scan.Dedupe
import Mathlib.Data.List.Basic

/-!
# Where a project lies

Which files of a folder are scanned is asked of their absolute paths, so the names of the folders
above the project take part. They can only close the whole project (`Choice.closes`): if none of
them is excluded or looks generated, the files are those that their paths from the project's own
folder decide (`targets_of_not_closes`), and the result of a scan is the same wherever the project
lies. If one is, nothing is scanned and the scan passes for one of an empty project.
-/

namespace CodeAudit

/-! ## Walking -/

namespace FileTree

variable {enter enter' : List String → Bool}

mutual

/-- A walk asks only about folders below its start. -/
theorem walk_congr (h : ∀ names, names ≠ [] → enter names = enter' names) (path : List String)
    (t : FileTree) : t.walk enter path = t.walk enter' path := by
  match t with
  | .file f => rfl
  | .folder entries => rw [walk, walk, walkFolders_congr h path entries]

/-- The same for the folders of a folder. -/
theorem walkFolders_congr (h : ∀ names, names ≠ [] → enter names = enter' names)
    (path : List String) (entries : List (String × FileTree)) :
    walkFolders enter path entries = walkFolders enter' path entries := by
  match entries with
  | [] => rfl
  | (name, .file f) :: rest =>
    rw [walkFolders, walkFolders]
    exact walkFolders_congr h path rest
  | (name, .folder inner) :: rest =>
    rw [walkFolders, walkFolders, h _ (by simp), walk_congr h, walkFolders_congr h path rest]

end

mutual

/-- The files in a folder have names. -/
theorem ne_nil_of_mem_walk (path : List String) (entries : List (String × FileTree)) :
    ∀ x ∈ (folder entries).walk enter path, x.1 ≠ [] := by
  intro x hx
  rw [walk, List.mem_append] at hx
  rcases hx with hx | hx
  · obtain ⟨⟨name, f⟩, -, rfl⟩ := List.mem_map.1 hx
    simp
  · obtain ⟨folder, hfolder, hx⟩ := List.mem_flatMap.1 hx
    exact ne_nil_of_mem_walkFolders path entries folder (List.mem_mergeSort.1 hfolder) x hx

/-- The same for the folders of a folder. -/
theorem ne_nil_of_mem_walkFolders (path : List String) (entries : List (String × FileTree)) :
    ∀ x ∈ walkFolders enter path entries, ∀ y ∈ x.2, y.1 ≠ [] := by
  match entries with
  | [] => simp [walkFolders]
  | (name, .file f) :: rest =>
    rw [walkFolders]
    exact ne_nil_of_mem_walkFolders path rest
  | (name, .folder inner) :: rest =>
    have hrest := @ne_nil_of_mem_walkFolders path rest
    rw [walkFolders]
    split
    · intro x hx
      rcases List.mem_cons.1 hx with rfl | hx
      · exact ne_nil_of_mem_walk (name :: path) inner
      · exact hrest x hx
    · exact hrest

end

end FileTree

namespace Scan

/-! ## The way to a project -/

/-- **Whether the names on the way to a folder close it**: one is excluded, or looks like a folder
that tools fill. -/
def Choice.closes (c : Choice) (root : Path) : Bool :=
  isExcluded c.excludes root ||
    (c.skipGenerated && ((allParts root).any (generatedFolders.contains ·) ||
      (allParts root).any fun part => ".egg-info".toList.isSuffixOf part.toList))

variable {c : Choice} {root : Path} {names : List String}

/-- The parts of a path below a folder are those of the folder and those below it. -/
theorem allParts_below (root : Path) (names : List String) :
    allParts (below root names) = allParts root ++ allParts ⟨.relative, names⟩ := by
  unfold allParts below
  cases root with
  | mk kind parts => cases kind <;> rfl

/-- The last name of a path below a folder is below the folder. -/
theorem name_below (root : Path) (hnames : names ≠ []) :
    (below root names).name = (⟨.relative, names⟩ : Path).name := by
  unfold Path.name below
  rw [List.getLast?_append, List.getLast?_eq_some_getLast hnames]
  rfl

/-- A path is excluded for the way to the project or for the way from there. -/
theorem isExcluded_below (excludes : List String) (root : Path) (names : List String) :
    isExcluded excludes (below root names) =
      (isExcluded excludes root || isExcluded excludes ⟨.relative, names⟩) := by
  unfold isExcluded
  rw [allParts_below, Bool.eq_iff_iff]
  simp only [List.contains_append, Bool.or_eq_true, List.any_eq_true]
  grind

/-- **Whether the way to a path is open** is asked of the way to the project, and of the way from
there. -/
theorem enters_below (c : Choice) (root : Path) (hnames : names ≠ []) :
    c.enters (below root names) = (!c.closes root && c.enters ⟨.relative, names⟩) := by
  unfold Choice.enters Choice.skips Choice.closes isGenerated
  rw [isExcluded_below, allParts_below, name_below root hnames, List.any_append, List.any_append]
  grind

/-- A wanted file is wanted for its name alone. -/
theorem allowsFile_below (c : Choice) (root : Path) (hnames : names ≠ []) (f : File) :
    c.allowsFile (below root names) f = c.allowsFile ⟨.relative, names⟩ f := by
  unfold Choice.allowsFile Choice.allowsName Path.suffix
  rw [name_below root hnames]

/-! ## The files of a project -/

/-- The path of a project from its own folder. -/
def here : Path := ⟨.relative, []⟩

/-- A file of a project that lies in a folder. -/
def Target.under (root : Path) (t : Target) : Target := { t with path := below root t.path.parts }

/-- In a closed folder there is nothing to scan. -/
theorem targets_of_closes (hclosed : c.closes root = true) (entries : List (String × FileTree)) :
    targets c root (.folder entries) = [] := by
  rw [targets, List.filterMap_eq_nil_iff]
  rintro ⟨names, f⟩ hx
  have hshut : c.enters (below root names) = false := by
    rw [enters_below c root (FileTree.ne_nil_of_mem_walk [] entries _ hx), hclosed]
    rfl
  simp only [hshut, Bool.false_and, Bool.false_eq_true, if_false]

/-- **In an open folder the files to scan are those of the project**, whatever the way to it. -/
theorem targets_of_not_closes (hopen : c.closes root = false)
    (entries : List (String × FileTree)) :
    targets c root (.folder entries) = (targets c here (.folder entries)).map (·.under root) := by
  have henters : ∀ names, names ≠ [] →
      c.enters (below root names) = c.enters (below here names) := by
    intro names hnames
    rw [enters_below c root hnames, hopen]
    rfl
  rw [targets, targets, FileTree.walk_congr henters, List.map_filterMap]
  refine List.filterMap_congr fun x hx => ?_
  have hnames := FileTree.ne_nil_of_mem_walk [] entries _ hx
  have hallows : c.allowsFile (below root x.1) x.2 = c.allowsFile (below here x.1) x.2 :=
    allowsFile_below c root hnames x.2
  dsimp only
  rw [henters _ hnames, hallows]
  split <;> rfl

/-- A file of a project keeps its name where the project lies. -/
theorem name_under {entries : List (String × FileTree)} {t : Target}
    (ht : t ∈ targets c here (.folder entries)) (root : Path) :
    (t.under root).path.name = t.path.name := by
  rw [targets] at ht
  obtain ⟨⟨names, f⟩, hx, hf⟩ := List.mem_filterMap.1 ht
  dsimp only at hf
  split at hf
  · obtain rfl := Option.some.inj hf
    exact name_below root (FileTree.ne_nil_of_mem_walk [] entries _ hx)
  · exact absurd hf (by simp)

/-! ## The result of a scan -/

/-- What a scan of a project gives where the way to it is open. -/
def ownResult (p : Plan) (tree : FileTree) (coverage : Option Coverage) : ScanResult :=
  ⟨dedupe ((targets p.choice here tree).flatMap (targetIssues p)),
    (targets p.choice here tree).length, coverage⟩

variable {disk : Disk} {p : Plan} {entries : List (String × FileTree)}

/-- **The way to a project decides between its own result and an empty one.** -/
theorem run_folder (hread : (FileTree.folder entries).Readable)
    (hroot : disk.get? (disk.absolute p.root) = some (.folder entries))
    (hengine : Engine.ofName? p.engine = some .builtIn) (machine : External.Machine)
    (coverage : Option Coverage) :
    (run disk machine p coverage).result =
      .ok (if p.choice.closes (disk.absolute p.root) then ⟨[], 0, coverage⟩
        else ownResult p (.folder entries) coverage) := by
  rw [run_builtIn hroot hengine machine coverage]
  split
  case isTrue hclosed =>
    rw [targets_of_closes hclosed, List.flatMap_nil, dedupe_nil]
    rfl
  case isFalse hopen =>
    have hissues : ∀ t ∈ targets p.choice here (.folder entries),
        targetIssues p (t.under (disk.absolute p.root)) = targetIssues p t := by
      intro t ht
      have hfile : t.file.readable = true := readable_of_mem_targets hread ht
      exact targetIssues_congr p (name_under ht _) rfl rfl hfile
    rw [targets_of_not_closes (by simpa using hopen), List.length_map, List.flatMap_map,
      List.flatMap_congr hissues]
    rfl

/-- A project's own result is an empty one only if it has no files to scan. -/
theorem ownResult_empty_iff {tree : FileTree} {coverage : Option Coverage} :
    ((ownResult p tree coverage).filesScanned = 0 ∧ (ownResult p tree coverage).issues = []) ↔
      targets p.choice here tree = [] := by
  unfold ownResult
  refine ⟨fun h => List.length_eq_zero_iff.1 (Int.natCast_eq_zero.1 h.1), fun h => ?_⟩
  rw [h, List.flatMap_nil, dedupe_nil]
  exact ⟨rfl, rfl⟩

/-- **Where a project lies decides its scan only by the names on the way to it.** Two scans of one
project with the same settings, at any two places, give the same files and issues exactly if both
ways to it are closed, or neither, or it has no files to scan. Behind a closed way the scan is that
of an empty project. -/
theorem same_wherever_iff_ways_agree {disk' : Disk} {root' : Path}
    (hread : (FileTree.folder entries).Readable)
    (hroot : disk.get? (disk.absolute p.root) = some (.folder entries))
    (hroot' : disk'.get? (disk'.absolute root') = some (.folder entries))
    (hengine : Engine.ofName? p.engine = some .builtIn) (machine machine' : External.Machine)
    (coverage : Option Coverage) :
    ∃ r r' : ScanResult,
      (run disk machine p coverage).result = .ok r ∧
      (run disk' machine' { p with root := root' } coverage).result = .ok r' ∧
      (p.choice.closes (disk.absolute p.root) = true → r = ⟨[], 0, coverage⟩) ∧
      ((r.filesScanned = r'.filesScanned ∧ r.issues = r'.issues) ↔
        p.choice.closes (disk.absolute p.root) = p.choice.closes (disk'.absolute root') ∨
          targets p.choice here (.folder entries) = []) := by
  -- The plan with the other root has the same rules and files of its own.
  have hmoved : (run disk' machine' { p with root := root' } coverage).result =
      .ok (if p.choice.closes (disk'.absolute root') then ⟨[], 0, coverage⟩
        else ownResult p (.folder entries) coverage) :=
    run_folder (p := { p with root := root' }) hread hroot' hengine machine' coverage
  refine ⟨_, _, run_folder hread hroot hengine machine coverage, hmoved,
    fun hclosed => if_pos hclosed, ?_⟩
  have hempty := @ownResult_empty_iff p (.folder entries) coverage
  cases p.choice.closes (disk.absolute p.root) <;>
    cases p.choice.closes (disk'.absolute root') <;> grind

/-! Three checkouts of one project. -/

/-- A project of two files for container builds. -/
def containerProject : FileTree :=
  .folder [("Dockerfile", .file ⟨[], true⟩), ("api", .folder [("Dockerfile", .file ⟨[], true⟩)])]

/-- The project in two folders of its own, and in one with the name of a folder that tools fill. -/
def checkouts : Disk where
  tree := .folder [("home", .folder [("p", containerProject)]),
    ("srv", .folder [("p", containerProject)]), ("target", containerProject)]
  current := ⟨.slash, []⟩

/-- A scan of a folder for container files. -/
def containerPlan (root : Path) : Plan where
  root
  choice :=
    { excludes := [".git"], extensions := [".py"], filenames := ["Dockerfile"]
      maxFileSizeKb := 1024, skipGenerated := true }

/-- Its files can be read. -/
theorem readable_containerProject : containerProject.Readable := by
  refine .folder fun e he => ?_
  simp only [List.mem_cons, List.not_mem_nil, or_false] at he
  rcases he with rfl | rfl
  · exact .file rfl
  · refine .folder fun e he => ?_
    obtain rfl := List.mem_singleton.1 he
    exact .file rfl

/-- The two checkouts in folders of their own give the same result. -/
theorem same_wherever_checkouts :
    ∃ r r' : ScanResult,
      (run checkouts {} (containerPlan ⟨.slash, ["home", "p"]⟩) none).result = .ok r ∧
      (run checkouts {} (containerPlan ⟨.relative, ["srv", "p"]⟩) none).result = .ok r' ∧
      r.filesScanned = r'.filesScanned ∧ r.issues = r'.issues := by
  obtain ⟨r, r', hr, hr', -, hsame⟩ := @same_wherever_iff_ways_agree checkouts
    (containerPlan ⟨.slash, ["home", "p"]⟩) _ checkouts ⟨.relative, ["srv", "p"]⟩
    readable_containerProject rfl rfl (by decide) {} {} none
  exact ⟨r, r', hr, hr', hsame.2 (.inl (by decide))⟩

/-- **Below a folder called `target` the project passes for an empty one.** -/
theorem nothing_scanned_below_target :
    ((run checkouts {} (containerPlan ⟨.relative, ["home", "p"]⟩) none).result.toOption.map
        (·.filesScanned)) = some 2 ∧
    ((run checkouts {} (containerPlan ⟨.relative, ["target"]⟩) none).result.toOption.map
        (·.filesScanned)) = some 0 := by
  decide +kernel

end Scan

end CodeAudit
