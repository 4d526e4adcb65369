import CodeAudit.Proofs.Disk.Rewriting
import CodeAudit.Proofs.Text.Encoding
import CodeAudit.Settings.Load

/-!
# The configuration file after writing

The configuration file is looked for in the current folder, by its name (`load_none`). A text that
is written somewhere changes the settings only where it disturbs that file: where its path leads to
it, or a folder of its name is made on the way. If it does not (`Keeps`) the settings are loaded as
before (`load_of_keeps`). If it does and starts with a brace, as a report does, no settings are
loaded at all (`not_load_of_not_keeps`).
-/

namespace CodeAudit

open FileTree

/-! ## Names in the current folder -/

namespace Disk

variable {d : Disk} {cur : List String} {c : FileTree} {name : String}

/-- A name that is not in a folder leads nowhere from it. -/
theorem follow_snoc_absent {above : List (FileTree × String)} {t : FileTree}
    {names place : List String} (h : follow above t names = .ok (place, c))
    (hfolder : c.isFolder = true) (hname : name ≠ "..") (hc : c.child? name = none) :
    follow above t (names ++ [name]) = .error (absence name) := by
  induction names generalizing above t with
  | nil =>
    obtain ⟨rfl, rfl⟩ := Prod.mk.inj (Except.ok.inj h)
    rw [List.nil_append, follow.eq_def]
    simp [hfolder, hname, hc]
  | cons n names ih =>
    obtain ⟨hn, above', t', hturn, hrest⟩ := follow_cons_eq_ok.1 h
    rw [List.cons_append, follow_of_turn hn hturn, ih hrest]

/-- **A disk as a program finds it**: its tree can lie on a machine, and the current folder is
there. -/
structure Sound (d : Disk) : Prop where
  proper : d.tree.Proper
  current : ∃ place entries, d.locate ⟨.relative, []⟩ = .ok (place, .folder entries)

/-- What has a name in the current folder. -/
theorem locate_name (h : d.locate ⟨.relative, []⟩ = .ok (cur, c)) (hfolder : c.isFolder = true)
    (hfit : unfit? ⟨.relative, [name]⟩ = none) (hname : name ≠ "..") :
    d.locate ⟨.relative, [name]⟩ = match d.tree.get? (cur ++ [name]) with
      | some u => .ok (cur ++ [name], u)
      | none => .error (absence name) := by
  have hhere := (locate_eq_ok.1 h).2
  have hparts : (d.current.join ⟨.relative, [name]⟩).parts =
      (d.current.join ⟨.relative, []⟩).parts ++ [name] :=
    join_parts d.current (by simp)
  have hget : d.tree.get? (cur ++ [name]) = c.child? name := by
    rw [get?_append, get?_of_locate h, Option.bind_some, FileTree.get?]
    cases c.child? name with
    | none => rfl
    | some u => rfl
  unfold locate
  rw [hfit, hget]
  dsimp only
  rw [hparts]
  cases hc : c.child? name with
  | some u => exact follow_snoc hhere hfolder hname hc
  | none => exact follow_snoc_absent hhere hfolder hname hc

end Disk

/-! ## The configuration file -/

namespace Settings

/-- The path of the configuration file. -/
def configPath : Path := ⟨.relative, [defaultFile]⟩

variable {stack : Stack}

/-- A text that starts with a brace is no configuration file. -/
theorem read_brace {text rest : List Char} (h : text = '\x7b' :: rest) (s : Settings) :
    read stack (Text.Utf8.encode text) ≠ .ok s := by
  have hread : Toml.read text = .error (.fault ⟨"Invalid statement", 0⟩) := by
    rw [h]
    rfl
  unfold read readText
  rw [Text.Utf8.decode_encode]
  dsimp only
  rw [hread]
  cases stack.settings? text with
  | some complaint => simp
  | none => simp

variable {d : Disk} {cur : List String} {c : FileTree}

section Current

variable (h : d.locate ⟨.relative, []⟩ = .ok (cur, c)) (hfolder : c.isFolder = true)

include h hfolder

/-- The configuration file is looked for in the current folder. -/
theorem locate_configPath : d.locate configPath =
    match d.tree.get? (cur ++ [defaultFile]) with
      | some u => .ok (cur ++ [defaultFile], u)
      | none => .error .missing :=
  Disk.locate_name h hfolder (by decide) (by decide)

/-- **The settings are those of the file of that name in the current folder.** -/
theorem load_none : load stack d none = match d.tree.get? (cur ++ [defaultFile]) with
    | none => .ok {}
    | some (.folder _) => .error (.disk ⟨.isFolder, configPath⟩)
    | some (.file f) => read stack f.bytes := by
  have hpath : Path.ofString ((none : Option String).getD defaultFile) = configPath := by decide
  have hlocate := locate_configPath h hfolder
  unfold load
  dsimp only
  rw [hpath]
  cases hget : d.tree.get? (cur ++ [defaultFile]) with
  | none =>
    rw [hget] at hlocate
    simp [Disk.seek, hlocate]
  | some u =>
    rw [hget] at hlocate
    cases u with
    | folder entries =>
      simp [Disk.seek, Disk.bytes, Disk.fileAt, hlocate, bind, Except.bind]
    | file f =>
      simp [Disk.seek, Disk.bytes, Disk.fileAt, hlocate, bind, Except.bind, pure, Except.pure]

/-- The configuration file is there exactly if the current folder has it. -/
theorem exists_configPath :
    d.exists? configPath = (d.tree.get? (cur ++ [defaultFile])).isSome := by
  unfold Disk.exists?
  rw [locate_configPath h hfolder]
  cases d.tree.get? (cur ++ [defaultFile]) with
  | none => rfl
  | some u => rfl

/-- Its place is in the current folder. -/
theorem place?_configPath : d.place? configPath =
    (d.tree.get? (cur ++ [defaultFile])).map fun _ => cur ++ [defaultFile] := by
  unfold Disk.place?
  rw [locate_configPath h hfolder]
  cases d.tree.get? (cur ++ [defaultFile]) with
  | none => rfl
  | some u => rfl

end Current

/-- **Writing to a path leaves the configuration file alone**: it is there as it was before, and
the path does not lead to it. -/
def Keeps (before after : Disk) (path : Path) : Prop :=
  after.exists? configPath = before.exists? configPath ∧
    after.place? configPath ≠ after.place? path

variable {before after : Disk} {path : Path} {text : String}

/-- Settings that are kept are loaded as before. -/
theorem load_of_keeps (hsound : before.Sound) (hwrite : before.writeText path text = .ok after)
    (h : Keeps before after path) : load stack after none = load stack before none := by
  obtain ⟨cur, entries, hcur⟩ := hsound.current
  obtain ⟨place, hchange, hlocate⟩ := Disk.writeText_eq_ok hwrite
  obtain ⟨c, hcur', hkind⟩ := Disk.locate_of_change hchange hcur
  obtain ⟨hexists, hplace⟩ := h
  rw [exists_configPath hcur rfl, exists_configPath hcur' hkind] at hexists
  rw [place?_configPath hcur' hkind, Disk.place?_of_locate hlocate] at hplace
  rw [load_none hcur rfl, load_none hcur' hkind]
  cases hold : before.tree.get? (cur ++ [defaultFile]) with
  | none =>
    rw [hold, Option.isSome_none, Option.isSome_eq_false_iff, Option.isNone_iff_eq_none] at hexists
    rw [hexists]
  | some u =>
    obtain ⟨u', hnew, hsame⟩ := hchange.tree.keeps hold
    have hne : cur ++ [defaultFile] ≠ place := by
      rintro rfl
      rw [hnew] at hplace
      exact hplace rfl
    have hfiles : after.tree.fileAt? (cur ++ [defaultFile]) =
        before.tree.fileAt? (cur ++ [defaultFile]) := hchange.tree.files hne
    rw [FileTree.fileAt?, FileTree.fileAt?, hnew, hold] at hfiles
    rw [hnew]
    cases u with
    | file f =>
      cases u' with
      | file f' => rw [Option.some.inj hfiles]
      | folder inner => exact absurd hsame (by simp [isFolder])
    | folder inner =>
      cases u' with
      | file f' => exact absurd hsame (by simp [isFolder])
      | folder inner' => rfl

/-- Settings that are not kept cannot be loaded any more. -/
theorem not_load_of_not_keeps (hsound : before.Sound)
    (hwrite : before.writeText path text = .ok after) {rest : List Char}
    (htext : text.toList = '\x7b' :: rest) (h : ¬ Keeps before after path) (s : Settings) :
    load stack after none ≠ .ok s := by
  obtain ⟨cur, entries, hcur⟩ := hsound.current
  obtain ⟨place, hchange, hlocate⟩ := Disk.writeText_eq_ok hwrite
  obtain ⟨c, hcur', hkind⟩ := Disk.locate_of_change hchange hcur
  rw [Keeps, exists_configPath hcur rfl, exists_configPath hcur' hkind,
    place?_configPath hcur' hkind, Disk.place?_of_locate hlocate] at h
  rw [load_none hcur' hkind]
  cases hnew : after.tree.get? (cur ++ [defaultFile]) with
  | none =>
    -- then there was no file before either, and everything is kept
    refine absurd ⟨?_, by simp [hnew]⟩ h
    cases hold : before.tree.get? (cur ++ [defaultFile]) with
    | none => rw [hnew]
    | some u =>
      obtain ⟨u', hu', -⟩ := hchange.tree.keeps hold
      exact absurd (hnew.symm.trans hu') (by simp)
  | some u =>
    cases u with
    | folder inner => simp
    | file f =>
      dsimp only
      by_cases hplace : cur ++ [defaultFile] = place
      · -- the report is the configuration file now
        have hreport := Disk.get?_of_locate hlocate
        rw [← hplace, hnew] at hreport
        obtain rfl := FileTree.file.inj (Option.some.inj hreport)
        exact read_brace htext s
      · -- the file is another one, which was there before
        have hfiles : after.tree.fileAt? (cur ++ [defaultFile]) =
            before.tree.fileAt? (cur ++ [defaultFile]) := hchange.tree.files hplace
        refine absurd ⟨?_, ?_⟩ h
        · rw [FileTree.fileAt?, FileTree.fileAt?, hnew] at hfiles
          obtain ⟨u, hu, -⟩ := Option.bind_eq_some_iff.1 hfiles.symm
          rw [hnew, hu]
          rfl
        · rw [hnew]
          simpa using hplace

end Settings

end CodeAudit
