import CodeAudit.Proofs.Scan.Targets

/-!
# A file alone and in its folder

A file can be scanned alone, or with the folder that it lies in. A scan of the folder asks of every
folder on the way whether it looks generated, and a scan of the file asks only of the file itself.
A folder that tools fill is in the path of all that is in it, so there the two agree; but the
endings of files that tools write are looked for in the last name of a path alone, and a folder
whose name has such an ending is passed over with all its files, which are scanned where they are
named one by one (`folder_and_single_scan_agree_iff`).
-/

namespace CodeAudit.Scan

variable {c : Choice} {root : Path} {names above rest : List String} {name : String} {f : File}
  {entries : List (String × FileTree)}

/-! ## What looks generated -/

/-- Whether a part of a path is a folder that tools fill. -/
def inGenerated (p : Path) : Bool :=
  (allParts p).any (generatedFolders.contains ·) ||
    (allParts p).any fun part => ".egg-info".toList.isSuffixOf part.toList

/-- Whether a name has the ending of a file that tools write. -/
def endsGenerated (name : String) : Bool :=
  generatedEndings.any fun ending => ending.isSuffixOf (Text.lower name.toList)

/-- A path looks generated for one of its parts, or for the ending of its last name. -/
theorem isGenerated_eq (p : Path) : isGenerated p = (inGenerated p || endsGenerated p.name) :=
  rfl

/-- What lies in a folder that tools fill stays in it further down. -/
theorem inGenerated_of_above (h : inGenerated (below root above) = true) :
    inGenerated (below root (above ++ rest)) = true := by
  unfold inGenerated at h ⊢
  rw [Bool.or_eq_true, List.any_eq_true, List.any_eq_true] at h ⊢
  refine h.imp ?_ ?_
  · rintro ⟨part, hpart, hfolder⟩
    exact ⟨part, mem_allParts_of_above hpart, hfolder⟩
  · rintro ⟨part, hpart, hending⟩
    exact ⟨part, mem_allParts_of_above hpart, hending⟩

/-- The last name of a path below a folder. -/
theorem name_below_snoc (root : Path) (above : List String) (name : String) :
    (below root (above ++ [name])).name = name := by
  rw [name_below root (by simp), Path.name, List.getLast?_append]
  rfl

/-- **Nothing on the way to a file looks generated**, if the file does not, exactly if no folder on
the way has the ending of a file that tools write. -/
theorem notGenerated_iff (hnames : names ≠ []) (hself : isGenerated (below root names) = false) :
    (∀ above rest, names = above ++ rest → above ≠ [] → isGenerated (below root above) = false) ↔
      ∀ name ∈ names.dropLast, endsGenerated name = false := by
  constructor
  · intro h name hname
    obtain ⟨before, after, hsplit⟩ := List.append_of_mem hname
    have hway : names = (before ++ [name]) ++ (after ++ [names.getLast hnames]) := by
      conv_lhs => rw [← List.dropLast_append_getLast hnames, hsplit]
      simp
    have hfolder := h _ _ hway (by simp)
    rw [isGenerated_eq, name_below_snoc, Bool.or_eq_false_iff] at hfolder
    exact hfolder.2
  · rintro h above rest rfl habove
    by_cases hrest : rest = []
    · subst hrest
      rwa [List.append_nil] at hself
    · obtain ⟨before, name, rfl⟩ : ∃ before name, above = before ++ [name] :=
        ⟨_, _, (List.dropLast_append_getLast habove).symm⟩
      have hname : name ∈ (before ++ [name] ++ rest).dropLast := by
        rw [List.dropLast_append_of_ne_nil hrest]
        simp
      rw [isGenerated_eq, name_below_snoc, h name hname, Bool.or_false, Bool.eq_false_iff]
      intro hfolder
      rw [isGenerated_eq, inGenerated_of_above hfolder] at hself
      exact absurd hself (by simp)

/-! ## The two scans -/

/-- A scan of a folder takes a file exactly if it is wanted. -/
theorem mem_targets_folder_iff (hproper : (FileTree.folder entries).Proper)
    (hfile : (FileTree.folder entries).fileAt? names = some f) :
    below root names ∈ (targets c root (.folder entries)).map (·.path) ↔
      Wanted c root names f := by
  have horder : ScanOrder c root (.folder entries) (taken c root (.folder entries)) :=
    scanOrder_taken hproper
  rw [targets_folder, List.map_map, List.mem_map]
  constructor
  · rintro ⟨⟨place, g⟩, hmem, hpath⟩
    obtain rfl : place = names := List.append_cancel_left (congrArg Path.parts hpath)
    obtain ⟨hg, hwanted⟩ := (horder.mem_iff _ _).1 hmem
    obtain rfl : f = g := Option.some.inj (hfile.symm.trans hg)
    exact hwanted
  · intro hwanted
    exact ⟨(names, f), (horder.mem_iff _ _).2 ⟨hfile, hwanted⟩, rfl⟩

/-- A scan of a file alone takes it exactly if it does not look generated and is allowed. -/
theorem targets_file_iff {p : Path} :
    (targets c p (.file f)).map (·.path) = [p] ↔
      (c.skipGenerated = true → isGenerated p = false) ∧ c.allowsFile p f = true := by
  have hskips : c.skips p = false ↔ (c.skipGenerated = true → isGenerated p = false) :=
    Bool.and_eq_false_imp
  rw [targets, ← hskips]
  split
  next h => simpa using h
  next h => simpa using h

/-- A scan of a file alone takes it or nothing. -/
theorem targets_file_ne_nil_iff {p : Path} :
    targets c p (.file f) ≠ [] ↔ (targets c p (.file f)).map (·.path) = [p] := by
  rw [targets]
  split
  next => simp
  next => simp

/-- **A file that is not excluded is scanned alone if it is scanned with its folder. The converse
holds exactly if no folder between them has the ending of a file that tools write**, unless such
files are to be scanned too, or the file would not be scanned in any case. -/
theorem folder_and_single_scan_agree_iff (hproper : (FileTree.folder entries).Proper)
    (hfile : (FileTree.folder entries).fileAt? names = some f)
    (hexcluded : ∀ e ∈ c.excludes, e ∉ allParts (below root names)) :
    (below root names ∈ (targets c root (.folder entries)).map (·.path) →
      (targets c (below root names) (.file f)).map (·.path) = [below root names]) ∧
    ((below root names ∈ (targets c root (.folder entries)).map (·.path) ↔
        (targets c (below root names) (.file f)).map (·.path) = [below root names]) ↔
      (c.skipGenerated = true → targets c (below root names) (.file f) ≠ [] →
        ∀ name ∈ names.dropLast, endsGenerated name = false)) := by
  have hnames := FileTree.ne_nil_of_fileAt? hfile
  rw [targets_file_ne_nil_iff, mem_targets_folder_iff hproper hfile, targets_file_iff]
  have halone : Wanted c root names f →
      (c.skipGenerated = true → isGenerated (below root names) = false) ∧
        c.allowsFile (below root names) f = true := by
    intro h
    exact ⟨fun hskip => h.notGenerated hskip names [] (List.append_nil _).symm hnames,
      allowsFile_iff.2 ⟨h.small, h.named⟩⟩
  refine ⟨halone, ⟨?_, ?_⟩⟩
  · rintro hagree hskip ⟨hself, hallows⟩
    have hwanted := hagree.2 ⟨hself, hallows⟩
    exact (notGenerated_iff hnames (hself hskip)).1 (hwanted.notGenerated hskip)
  · intro hclear
    refine ⟨halone, fun ⟨hself, hallows⟩ => ?_⟩
    obtain ⟨hsmall, hnamed⟩ := allowsFile_iff.1 hallows
    refine ⟨hexcluded, fun hskip => ?_, hsmall, hnamed⟩
    exact (notGenerated_iff hnames (hself hskip)).2 (hclear hskip ⟨hself, hallows⟩)

/-- A file in a folder with an ordinary name is scanned alone as it is with the project. -/
theorem folder_and_single_scan_agree_in_webProject :
    (⟨.slash, ["web", "app.py"]⟩ : Path) ∈
        (targets sourcePlan.choice ⟨.slash, []⟩ (webProject ⟨[], true⟩)).map (·.path) ∧
      (targets sourcePlan.choice ⟨.slash, ["web", "app.py"]⟩ (.file ⟨[], true⟩)).map (·.path) =
        [⟨.slash, ["web", "app.py"]⟩] := by
  obtain ⟨-, hagree⟩ := @folder_and_single_scan_agree_iff sourcePlan.choice ⟨.slash, []⟩
    ["web", "app.py"] ⟨[], true⟩ _ (proper_webProject ⟨[], true⟩) rfl (by decide)
  have hiff := hagree.2 fun _ _ name hname => by
    obtain rfl := List.mem_singleton.1 hname
    decide +kernel
  have halone : (targets sourcePlan.choice ⟨.slash, ["web", "app.py"]⟩
      (.file ⟨[], true⟩)).map (·.path) = [⟨.slash, ["web", "app.py"]⟩] := by decide +kernel
  exact ⟨hiff.2 halone, halone⟩

/-- A project with a folder whose name has the ending of a file that tools write. -/
def mapProject : FileTree :=
  .folder [("assets.map", .folder [("Dockerfile", .file ⟨[], true⟩)])]

/-- **What is in such a folder is scanned alone and not with the project.** -/
theorem folder_scan_passes_over_mapProject :
    mapProject.fileAt? ["assets.map", "Dockerfile"] = some ⟨[], true⟩ ∧
      ¬ ((⟨.slash, ["p", "assets.map", "Dockerfile"]⟩ : Path) ∈
          (targets sourcePlan.choice ⟨.slash, ["p"]⟩ mapProject).map (·.path) ↔
        (targets sourcePlan.choice ⟨.slash, ["p", "assets.map", "Dockerfile"]⟩
          (.file ⟨[], true⟩)).map (·.path) = [⟨.slash, ["p", "assets.map", "Dockerfile"]⟩]) := by
  decide +kernel

end CodeAudit.Scan
