import CodeAudit.Proofs.Scan.Hybrid
import CodeAudit.Proofs.Scan.Separation

/-!
# Issues in generated files

A scan that is to pass over what looks generated does so where it chooses files, and the built-in
checks see no such file. What the external scanner finds comes in by another way, on which paths
are rewritten and rules are chosen, but nothing is asked about the path. So the issues of a scan in
generated files are exactly those that the external scanner brings in
(`generated_reported_by_external_only`).
-/

namespace CodeAudit

namespace Path

variable {names : List String}

/-- The text of a place below a folder does not start at a root. -/
theorem root_ofString_toString (h : ∀ n ∈ names, FileTree.isName n = true) :
    (ofString (toString ⟨.relative, names⟩)).root = .relative := by
  cases names with
  | nil => decide
  | cons name rest =>
    have htext : toString ⟨.relative, name :: rest⟩ = "/".intercalate (name :: rest) := by
      rw [toString, if_neg fun hnil => absurd hnil.2 (List.cons_ne_nil _ _)]
      exact String.empty_append
    obtain ⟨hempty, -, -, hslash⟩ := FileTree.isName_iff.1 (h name List.mem_cons_self)
    obtain ⟨c, cs, hname⟩ : ∃ c cs, name.toList = c :: cs :=
      List.exists_cons_of_ne_nil fun hnil => hempty (String.toList_inj.1 hnil)
    have hfirst : ∃ more, ("/".intercalate (name :: rest)).toList = c :: more := by
      cases rest with
      | nil => exact ⟨cs, by rw [String.intercalate_singleton, hname]⟩
      | cons next rest =>
        rw [String.intercalate_cons_cons, String.toList_append, String.toList_append, hname]
        exact ⟨_, rfl⟩
    obtain ⟨more, hmore⟩ := hfirst
    have hc : c ≠ '/' := fun heq => hslash (by rw [hname, heq]; exact List.mem_cons_self)
    rw [ofString, htext, hmore]
    show rootOf (c :: more) = .relative
    unfold rootOf
    split
    next heq => exact absurd (List.cons.inj heq).1 hc
    next heq => exact absurd (List.cons.inj heq).1 hc
    next heq => exact absurd (List.cons.inj heq).1 hc
    next => rfl

/-- **A place that is shown from a folder is found again below it.** -/
theorem join_ofString_toString (h : ∀ n ∈ names, FileTree.isName n = true) (root : Path) :
    root.join (ofString (toString ⟨.relative, names⟩)) = ⟨root.root, root.parts ++ names⟩ := by
  have hrelative : (ofString (toString ⟨.relative, names⟩)).isAbsolute = false := by
    rw [isAbsolute, root_ofString_toString h]
    rfl
  rw [join, hrelative, parts_ofString_toString h]
  rfl

end Path

namespace Scan

variable {disk : Disk} {machine : External.Machine} {p : Plan} {c : Choice}
  {root : Path} {coverage : Option Coverage} {tree : FileTree} {engine : Engine} {r : ScanResult}
  {entries : List (String × FileTree)}

/-- Whether an issue of a scan lies in a file that looks generated. -/
def inGeneratedFile (root : Path) (i : Issue) : Bool :=
  isGenerated (root.join (Path.ofString i.filePath))

/-- The files that a scan chooses do not look generated, seen from the issues that name them. -/
theorem not_inGeneratedFile_of_shown (hproper : (FileTree.folder entries).Proper)
    (hskip : c.skipGenerated = true) {t : Target} (ht : t ∈ targets c root (.folder entries))
    {i : Issue} (hi : i.filePath = t.shown) : inGeneratedFile root i = false := by
  rw [targets_folder] at ht
  obtain ⟨⟨names, f⟩, hx, rfl⟩ := List.mem_map.1 ht
  obtain ⟨hfile, hwanted⟩ := ((scanOrder_taken hproper).mem_iff names f).1 hx
  have hshown : i.filePath = Path.toString ⟨.relative, names⟩ := hi
  rw [inGeneratedFile, hshown,
    Path.join_ofString_toString (FileTree.isName_of_fileAt? hproper hfile)]
  exact hwanted.notGenerated hskip names [] (List.append_nil _).symm
    (FileTree.ne_nil_of_fileAt? hfile)

/-- **No built-in check reports an issue in a generated file.** -/
theorem not_inGeneratedFile_of_targetIssues (hproper : (FileTree.folder entries).Proper)
    (hskip : c.skipGenerated = true) :
    ∀ i ∈ (targets c root (.folder entries)).flatMap (targetIssues p),
      inGeneratedFile root i = false := by
  intro i hi
  obtain ⟨t, ht, hi⟩ := List.mem_flatMap.1 hi
  exact not_inGeneratedFile_of_shown hproper hskip ht (filePath_of_mem_targetIssues hi)

/-- **The issues of a scan in generated files are those that the external scanner adds**, where such
files are to be passed over. So there are none exactly if it adds none: always where the built-in
checks run alone. -/
theorem generated_reported_by_external_only (hproper : (FileTree.folder entries).Proper)
    (hroot : disk.get? (disk.absolute p.root) = some (.folder entries))
    (hskip : p.choice.skipGenerated = true)
    (hr : (runWithin disk machine p coverage).result = .ok r) :
    r.issues.filter (inGeneratedFile (disk.absolute p.root)) =
        dedupe ((added disk machine p (.folder entries)).filter
          (inGeneratedFile (disk.absolute p.root))) ∧
      ((∀ i ∈ r.issues, inGeneratedFile (disk.absolute p.root) i = false) ↔
        ∀ i ∈ added disk machine p (.folder entries),
          inGeneratedFile (disk.absolute p.root) i = false) := by
  have hrun := run_of_runWithin hr
  obtain ⟨tree, engine, -, hengine⟩ := exists_engine_of_result hrun
  have hissues := issues_of_result hroot hengine hrun
  generalize hown : (if engine.runsChecks then
    (targets p.choice (disk.absolute p.root) (.folder entries)).flatMap (targetIssues p)
    else []) = own at hissues
  have hclean : ∀ i ∈ own, inGeneratedFile (disk.absolute p.root) i = false := by
    intro i hi
    rw [← hown] at hi
    split at hi
    · exact not_inGeneratedFile_of_targetIssues hproper hskip i hi
    · exact absurd hi List.not_mem_nil
  have hplace : RespectsSame (inGeneratedFile (disk.absolute p.root)) :=
    respectsSame_filePath fun path => isGenerated ((disk.absolute p.root).join (Path.ofString path))
  refine ⟨?_, fun hnone i hi => ?_, fun hnone i hi => ?_⟩
  · rw [hissues, ← dedupe_filter hplace, List.filter_append,
      List.filter_eq_nil_iff.2 fun i hi => by simp [hclean i hi], List.nil_append]
  · obtain ⟨k, hk, hsame⟩ := exists_same_of_mem (List.mem_append_right own hi)
    rw [← hplace hsame]
    exact hnone k (hissues ▸ hk)
  · rw [hissues] at hi
    rcases List.mem_append.1 (mem_of_mem_dedupe hi) with hi | hi
    · exact hclean i hi
    · exact hnone i hi

/-- A machine whose scanner reports one finding, in the file that is given. -/
def pointingMachine (path : String) : External.Machine where
  reply := { output := "\x7b\"results\": [\x7b\"check_id\": \"weak-hash\", \"path\": \"" ++ path ++
    "\", \"start\": \x7b\"line\": 1, \"col\": 1\x7d\x7d]\x7d" }

/-- A scan of the project with the external scanner. -/
def pointingPlan : Plan := { sourcePlan with engine := "semgrep" }

/-- What is found there. -/
def pointedIssue (path : String) : Issue :=
  ⟨"SG:weak-hash", "weak-hash", .medium, "weak-hash", path, 1, 1⟩

/-- What the scanner points at is all that the scan reports. -/
theorem exists_result_pointing {path : String}
    (h : path ∈ ["web/app.py", "web/node_modules/setup.py"]) :
    added (webDisk ⟨[], true⟩) (pointingMachine path) pointingPlan (webProject ⟨[], true⟩) =
        [pointedIssue path] ∧
      ∃ r, (runWithin (webDisk ⟨[], true⟩) (pointingMachine path) pointingPlan
        none).result = .ok r ∧ r.issues = [pointedIssue path] := by
  have hfound : ∀ path ∈ ["web/app.py", "web/node_modules/setup.py"],
      (externalFindings (webDisk ⟨[], true⟩) (pointingMachine path) pointingPlan
        (webProject ⟨[], true⟩)).toOption = some [(path, [pointedIssue path])] := by
    decide +kernel
  have hengine : Engine.ofName? pointingPlan.engine = some .external := by decide
  have hroot : (webDisk ⟨[], true⟩).get? ((webDisk ⟨[], true⟩).absolute pointingPlan.root) =
      some (webProject ⟨[], true⟩) := rfl
  have hadded : added (webDisk ⟨[], true⟩) (pointingMachine path) pointingPlan
      (webProject ⟨[], true⟩) = [pointedIssue path] := by
    rw [added, hengine, hfound path h]
    rfl
  have hfolders : pointingPlan.choice.depth ((webDisk ⟨[], true⟩).absolute pointingPlan.root)
      (webProject ⟨[], true⟩) ≤ Stack.usual.folders := by decide +kernel
  obtain ⟨r, hr, hissues⟩ := exists_result_external hroot hengine hfolders (hfound path h)
  exact ⟨hadded, r, hr, hissues.trans (dedupe_singleton _)⟩

/-- A finding beside the folder that tools fill leaves the result without issues in that folder. -/
theorem generated_not_reported_beside_modules :
    ∃ r, (runWithin (webDisk ⟨[], true⟩) (pointingMachine "web/app.py") pointingPlan
        none).result = .ok r ∧ r.issues = [pointedIssue "web/app.py"] ∧
      ∀ i ∈ r.issues, inGeneratedFile ⟨.slash, []⟩ i = false := by
  obtain ⟨hadded, r, hr, hissues⟩ := @exists_result_pointing "web/app.py" (by decide)
  obtain ⟨-, hnone⟩ :=
    generated_reported_by_external_only (proper_webProject ⟨[], true⟩) rfl rfl hr
  refine ⟨r, hr, hissues, hnone.2 fun i hi => ?_⟩
  obtain rfl := List.mem_singleton.1 (hadded ▸ hi)
  decide

/-- **A finding in that folder is reported**, though the scan is to pass over it. -/
theorem generated_reported_in_modules :
    ∃ r, (runWithin (webDisk ⟨[], true⟩) (pointingMachine "web/node_modules/setup.py")
        pointingPlan none).result = .ok r ∧ pointingPlan.choice.skipGenerated = true ∧
      ∃ i ∈ r.issues, inGeneratedFile ⟨.slash, []⟩ i = true := by
  obtain ⟨-, r, hr, hissues⟩ := @exists_result_pointing "web/node_modules/setup.py" (by decide)
  refine ⟨r, hr, rfl, pointedIssue "web/node_modules/setup.py", ?_, by decide⟩
  rw [hissues]
  exact List.mem_singleton_self _

end Scan

end CodeAudit
