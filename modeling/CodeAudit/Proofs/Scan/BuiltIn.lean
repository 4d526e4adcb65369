import CodeAudit.Proofs.Checks.Languages
import CodeAudit.Scan.Basic

/-!
# Scans with the built-in checks

The result of such a scan as one equation, and the issues of a readable file in terms of what the
checks find: they are decided by the last name of its path, the path that is shown and its bytes,
and each is of a rule of the checks.
-/

namespace CodeAudit

/-! ## Trees that can be read -/

/-- **A tree of files that can all be read.** -/
inductive FileTree.Readable : FileTree → Prop
  | file {f : File} (h : f.readable = true) : Readable (.file f)
  | folder {entries : List (String × FileTree)} (h : ∀ e ∈ entries, Readable e.2) :
      Readable (.folder entries)

namespace FileTree

mutual

/-- The files of a tree that can be read can be read. -/
theorem readable_of_mem_walk {enter : List String → Bool} {path : List String} {t : FileTree}
    (ht : t.Readable) : ∀ x ∈ t.walk enter path, x.2.readable = true := by
  match t with
  | .file f =>
    intro x hx
    obtain rfl := List.mem_singleton.1 hx
    cases ht with
    | file h => exact h
  | .folder entries =>
    cases ht with
    | folder h =>
      intro x hx
      rw [walk, List.mem_append] at hx
      rcases hx with hx | hx
      · obtain ⟨⟨name, f⟩, hf, rfl⟩ := List.mem_map.1 hx
        obtain ⟨e, he, hfile⟩ := List.mem_filterMap.1 (List.mem_mergeSort.1 hf)
        obtain ⟨g, hg, heq⟩ := Option.map_eq_some_iff.1 hfile
        obtain ⟨-, rfl⟩ := Prod.mk.inj heq
        have hread := h e he
        cases hkind : e.2 with
        | file f =>
          rw [hkind] at hread hg
          obtain rfl := Option.some.inj hg
          cases hread with
          | file h => exact h
        | folder _ =>
          rw [hkind] at hg
          exact absurd hg (by simp [file?])
      · obtain ⟨folder, hfolder, hx⟩ := List.mem_flatMap.1 hx
        exact readable_of_mem_walkFolders h folder (List.mem_mergeSort.1 hfolder) x hx

/-- The same for the folders of a folder. -/
theorem readable_of_mem_walkFolders {enter : List String → Bool} {path : List String}
    {entries : List (String × FileTree)} (h : ∀ e ∈ entries, e.2.Readable) :
    ∀ x ∈ walkFolders enter path entries, ∀ y ∈ x.2, y.2.readable = true := by
  match entries with
  | [] => simp [walkFolders]
  | (name, .file f) :: rest =>
    rw [walkFolders]
    exact readable_of_mem_walkFolders fun e he => h e (List.mem_cons_of_mem _ he)
  | (name, .folder inner) :: rest =>
    have hrest := @readable_of_mem_walkFolders enter path rest
      fun e he => h e (List.mem_cons_of_mem (name, .folder inner) he)
    rw [walkFolders]
    split
    · intro x hx
      rcases List.mem_cons.1 hx with rfl | hx
      · exact readable_of_mem_walk (h _ List.mem_cons_self)
      · exact hrest x hx
    · exact hrest

end

end FileTree

namespace Scan

/-- The files to scan in a tree that can be read can be read. -/
theorem readable_of_mem_targets {c : Choice} {root : Path} {tree : FileTree}
    (h : tree.Readable) {t : Target} (ht : t ∈ targets c root tree) : t.file.readable = true := by
  cases tree with
  | file f =>
    rw [targets] at ht
    split at ht
    · obtain rfl := List.mem_singleton.1 ht
      cases h with
      | file h => exact h
    · exact absurd ht List.not_mem_nil
  | folder entries =>
    rw [targets] at ht
    obtain ⟨⟨names, f⟩, hx, hf⟩ := List.mem_filterMap.1 ht
    dsimp only at hf
    split at hf
    · obtain rfl := Option.some.inj hf
      exact FileTree.readable_of_mem_walk h _ hx
    · exact absurd hf (by simp)

/-! ## The result -/

/-- **The result of a scan with the built-in checks.** -/
theorem run_builtIn {disk : Disk} {p : Plan} {tree : FileTree}
    (hroot : disk.get? (disk.absolute p.root) = some tree)
    (hengine : Engine.ofName? p.engine = some .builtIn) (machine : External.Machine)
    (coverage : Option Coverage) :
    (run disk machine p coverage).result =
      .ok ⟨dedupe ((targets p.choice (disk.absolute p.root) tree).flatMap (targetIssues p)),
        (targets p.choice (disk.absolute p.root) tree).length, coverage⟩ := by
  unfold run
  simp only [hroot, hengine]
  rfl

/-! ## The issues of a file -/

/-- Paths with the same last name make the same file, but for the path. -/
theorem of_eq_moved {p q : Path} (h : p.name = q.name) (text : List Char) :
    SourceFile.of p text = (SourceFile.of q text).moved p.toString := by
  unfold SourceFile.of SourceFile.moved Path.suffix
  rw [h]

/-- **What is found in a text under a name**, whatever the path above the name. -/
theorem exists_shown_findings (q : Path) (text : List Char) :
    ∃ found : List (Checks.Finding Catalogue.checks), ∀ {p : Path}, p.name = q.name → ∀ shown,
      (Checks.check (SourceFile.of p text)).map (fun i => { i with filePath := shown }) =
        found.map (·.issue shown) := by
  obtain ⟨found, hfound⟩ := Checks.exists_findings (SourceFile.of q text)
  refine ⟨found, fun hname shown => ?_⟩
  rw [of_eq_moved hname, hfound, List.map_map]
  rfl

/-- The comments that a plan heeds in a file. -/
def Plan.silencedIn (p : Plan) (f : File) : List (Nat × List String) :=
  if p.inlineIgnore then silencedLines (textOf f.bytes) else []

/-- The issues of a readable file are those that the checks find in its text. -/
theorem targetIssues_of_readable (p : Plan) {t : Target} (hread : t.file.readable = true) :
    targetIssues p t = kept p.checkRules (p.silencedIn t.file) t.shown
      (Checks.check (SourceFile.of t.path (textOf t.file.bytes))) := by
  unfold targetIssues
  rw [hread]
  rfl

/-- **The issues of a readable file** depend on its path only through the last name. -/
theorem targetIssues_congr (p : Plan) {t t' : Target} (hname : t.path.name = t'.path.name)
    (hshown : t.shown = t'.shown) (hfile : t.file = t'.file) (hread : t.file.readable = true) :
    targetIssues p t = targetIssues p t' := by
  obtain ⟨found, hfound⟩ := exists_shown_findings t'.path (textOf t'.file.bytes)
  rw [targetIssues_of_readable p hread, targetIssues_of_readable p (hfile ▸ hread)]
  unfold kept
  rw [hfile, hshown, hfound hname, hfound rfl]

/-- Every issue that the checks find is of one of their rules. -/
theorem exists_rule_of_mem_check {f : SourceFile} {i : Issue} (h : i ∈ Checks.check f) :
    ∃ r ∈ Catalogue.checks, i.ruleId = r.id := by
  obtain ⟨found, hfound⟩ := Checks.exists_findings f
  have hself : Checks.check f = found.map (·.issue f.path) := hfound f.path
  rw [hself] at h
  obtain ⟨x, -, rfl⟩ := List.mem_map.1 h
  exact ⟨x.rule, x.mem_rules, rfl⟩

end Scan

end CodeAudit
