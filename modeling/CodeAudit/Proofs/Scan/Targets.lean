import CodeAudit.Proofs.Disk.Walk
import CodeAudit.Proofs.Scan.Location
import CodeAudit.Proofs.Scan.Stack

/-!
# Which files are scanned, and in which order

A scan passes over a folder with all that is in it, and yet a file is scanned exactly if it is
wanted itself (`Wanted`): an excluded name stays in the path of everything below it, and so a closed
folder holds no file that would be wanted. The files come in an order that their names decide
(`ScanOrder`), and the progress of a scan counts them in that order.
-/

namespace CodeAudit.Scan

variable {c : Choice} {root : Path} {names above rest : List String} {f : File}
  {entries entries' : List (String × FileTree)}

/-! ## Wanted files -/

/-- **Whether a file below a folder is wanted.** -/
structure Wanted (c : Choice) (root : Path) (names : List String) (f : File) : Prop where
  notExcluded : ∀ e ∈ c.excludes, e ∉ allParts (below root names)
  /-- Neither the file looks generated nor a folder between it and the root. -/
  notGenerated : c.skipGenerated = true → ∀ above rest, names = above ++ rest → above ≠ [] →
    isGenerated (below root above) = false
  small : 0 < c.maxFileSizeKb → (f.bytes.length : Int) ≤ c.maxFileSizeKb * 1024
  named : (below root names).name ∈ c.filenames ∨
    Text.lower (below root names).suffix ∈ c.extensions.map Choice.plainExtension

/-- The way to a path is open if no part is excluded and it does not look generated. -/
theorem enters_iff {p : Path} : c.enters p = true ↔
    (∀ e ∈ c.excludes, e ∉ allParts p) ∧ (c.skipGenerated = true → isGenerated p = false) := by
  simp only [Choice.enters, Choice.skips, isExcluded, Bool.and_eq_true, Bool.not_eq_true',
    List.any_eq_false, List.contains_iff_mem, Bool.and_eq_false_imp]

/-- A file is small enough and has a wanted name. -/
theorem allowsFile_iff {p : Path} : c.allowsFile p f = true ↔
    (0 < c.maxFileSizeKb → (f.bytes.length : Int) ≤ c.maxFileSizeKb * 1024) ∧
      (p.name ∈ c.filenames ∨ Text.lower p.suffix ∈ c.extensions.map Choice.plainExtension) := by
  simp only [Choice.allowsFile, Choice.allowsSize, Choice.allowsName, Bool.and_eq_true,
    Bool.or_eq_true, decide_eq_true_eq, List.contains_iff_mem, ← Int.not_lt,
    Decidable.imp_iff_not_or]

/-- The parts of the way to a path are parts of the path. -/
theorem mem_allParts_of_above {part : String} (h : part ∈ allParts (below root above)) :
    part ∈ allParts (below root (above ++ rest)) := by
  have hbelow : below root (above ++ rest) = below (below root above) rest := by
    simp only [below, List.append_assoc]
  rw [hbelow, allParts_below]
  exact List.mem_append_left _ h

/-- **A wanted file is one that is allowed and whose way is open**, up to the file itself. -/
theorem wanted_iff (hnames : names ≠ []) : Wanted c root names f ↔
    FileTree.WayOpen (fun names => c.enters (below root names)) [] names ∧
      c.enters (below root names) = true ∧ c.allowsFile (below root names) f = true := by
  rw [enters_iff, allowsFile_iff]
  constructor
  · intro h
    refine ⟨fun above rest hsplit habove _ => enters_iff.2 ⟨fun e he hpart => ?_, fun hskip => ?_⟩,
      ⟨h.notExcluded, fun hskip => ?_⟩, h.small, h.named⟩
    · subst hsplit
      exact h.notExcluded e he (mem_allParts_of_above hpart)
    · exact h.notGenerated hskip above rest hsplit habove
    · exact h.notGenerated hskip names [] (List.append_nil _).symm hnames
  · rintro ⟨hway, ⟨hexcluded, hgenerated⟩, hsmall, hnamed⟩
    refine ⟨hexcluded, fun hskip above rest hsplit habove => ?_, hsmall, hnamed⟩
    by_cases hrest : rest = []
    · subst hrest
      rw [List.append_nil] at hsplit
      exact hsplit ▸ hgenerated hskip
    · exact (enters_iff.1 (hway above rest hsplit habove hrest)).2 hskip

/-! ## The files of a scan -/

/-- The file to scan at a place below a folder. -/
def Target.at (root : Path) (x : List String × File) : Target :=
  ⟨below root x.1, Path.toString ⟨.relative, x.1⟩, x.2⟩

/-- Files at different places are different files to scan. -/
theorem Target.at_injective (root : Path) : Function.Injective (Target.at root) := by
  intro x y h
  have hplace : root.parts ++ x.1 = root.parts ++ y.1 := congrArg (·.path.parts) h
  exact Prod.ext (List.append_cancel_left hplace) (congrArg (·.file) h)

/-- **The files of a tree that are wanted, each once, in the order of their names.** -/
structure ScanOrder (c : Choice) (root : Path) (tree : FileTree)
    (files : List (List String × File)) : Prop where
  mem_iff : ∀ names f, (names, f) ∈ files ↔ tree.fileAt? names = some f ∧ Wanted c root names f
  once : (files.map (·.1)).Nodup
  ordered : files.Pairwise FileTree.Earlier

variable {tree : FileTree} {files files' : List (List String × File)}

/-- There is one such order. -/
theorem ScanOrder.unique (h : ScanOrder c root tree files) (h' : ScanOrder c root tree files') :
    files = files' :=
  FileTree.eq_of_earlier h.ordered h'.ordered fun ⟨names, f⟩ =>
    (h.mem_iff names f).trans (h'.mem_iff names f).symm

/-- The files that a walk finds and a scan takes. -/
def taken (c : Choice) (root : Path) (tree : FileTree) : List (List String × File) :=
  (tree.walk (fun names => c.enters (below root names)) []).filter fun x =>
    c.enters (below root x.1) && c.allowsFile (below root x.1) x.2

/-- The files to scan are those that are taken. -/
theorem targets_folder : targets c root (.folder entries) =
    (taken c root (.folder entries)).map (Target.at root) := by
  rw [targets, taken, ← List.filterMap_eq_map, List.filterMap_filter]
  refine List.filterMap_congr fun x _ => ?_
  rfl

/-- **A walk that passes over folders takes the wanted files**, in their order. -/
theorem scanOrder_taken (hproper : (FileTree.folder entries).Proper) :
    ScanOrder c root (.folder entries) (taken c root (.folder entries)) := by
  have hmem : ∀ names f, (names, f) ∈ taken c root (.folder entries) ↔
      (FileTree.folder entries).fileAt? names = some f ∧ Wanted c root names f := by
    intro names f
    rw [taken, List.mem_filter, FileTree.mem_walk_iff hproper, Bool.and_eq_true]
    constructor
    · rintro ⟨⟨_, rfl, hfile, hway⟩, hopen⟩
      exact ⟨hfile, (wanted_iff (FileTree.ne_nil_of_fileAt? hfile)).2 ⟨hway, hopen⟩⟩
    · rintro ⟨hfile, hwanted⟩
      obtain ⟨hway, hopen⟩ := (wanted_iff (FileTree.ne_nil_of_fileAt? hfile)).1 hwanted
      exact ⟨⟨names, rfl, hfile, hway⟩, hopen⟩
  have hwalk := @FileTree.pairwise_walk _ (fun names => c.enters (below root names)) [] hproper
  have hordered : (taken c root (.folder entries)).Pairwise FileTree.Earlier := hwalk.filter _
  refine ⟨hmem, List.pairwise_map.2 (hordered.imp fun hbefore => ?_), hordered⟩
  exact FileTree.Before.ne hbefore

/-- A project with a folder that tools fill beside a file of source. -/
def webProject (app : File) : FileTree :=
  .folder [("web", .folder [("node_modules", .folder [("setup.py", .file ⟨[], true⟩)]),
      ("app.py", .file app)]),
    ("Dockerfile", .file ⟨[], true⟩)]

/-- The project on a disk of its own. -/
def webDisk (app : File) : Disk := ⟨webProject app, ⟨.slash, []⟩⟩

/-- It can lie on a disk. -/
theorem proper_webProject (app : File) : (webProject app).Proper := by
  have hmodules : (FileTree.folder [("setup.py", .file ⟨[], true⟩)]).Proper := by
    refine .folder (by decide) (by decide) fun e he => ?_
    obtain rfl := List.mem_singleton.1 he
    exact .file _
  refine .folder (by simp) (by simp [FileTree.isName]) fun e he => ?_
  rcases List.mem_cons.1 he with rfl | he
  · refine .folder (by simp) (by simp [FileTree.isName]) fun e he => ?_
    rcases List.mem_cons.1 he with rfl | he
    · exact hmodules
    · obtain rfl := List.mem_singleton.1 he
      exact .file _
  · obtain rfl := List.mem_singleton.1 he
    exact .file _

end CodeAudit.Scan
