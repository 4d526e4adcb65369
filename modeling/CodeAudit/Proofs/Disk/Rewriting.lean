import CodeAudit.Proofs.Disk.Naming
import CodeAudit.Proofs.Disk.Writing

/-!
# Writing twice

A disk stays one that can lie on a machine when a text is written to a path that was read from a
text (`proper_of_writeText`): new names come from the path, which has no dots and no slashes left
where something is made. And what could be written once can be written again
(`exists_writeText_again`), because the folders above it are there by then. A folder of the disk
keeps its place and all of its files but the one that is written (`exists_folder_after`).
-/

namespace CodeAudit

namespace FileTree

variable {t new : FileTree} {names : List String} {name : String}
  {entries : List (String × FileTree)}

/-- A folder stays proper when a name in it is set. -/
theorem proper_setChild (h : (folder entries).Proper) (hname : isName name = true)
    (ht : t.Proper) : (folder (setChild entries name t)).Proper := by
  cases h with
  | folder distinct named inner =>
    unfold setChild
    split
    next =>
      have hkeys : (entries.map fun e => if e.1 == name then (name, t) else e).map (·.1) =
          entries.map (·.1) := by
        rw [List.map_map]
        refine List.map_congr_left fun e _ => ?_
        by_cases he : e.1 = name
        · simp [he]
        · simp [he]
      refine .folder (hkeys ▸ distinct) ?_ ?_
      · intro e he
        obtain ⟨old, hold, rfl⟩ := List.mem_map.1 he
        split
        · exact hname
        · exact named old hold
      · intro e he
        obtain ⟨old, hold, rfl⟩ := List.mem_map.1 he
        split
        · exact ht
        · exact inner old hold
    next hnone =>
      have hfree : name ∉ entries.map (·.1) := by
        intro hmem
        obtain ⟨e, he, rfl⟩ := List.mem_map.1 hmem
        exact hnone (List.any_eq_true.2 ⟨e, he, beq_self_eq_true _⟩)
      refine .folder ?_ ?_ ?_
      · rw [List.map_append, List.map_singleton]
        exact distinct.append (List.nodup_singleton _) (by simpa using hfree)
      · intro e he
        rcases List.mem_append.1 he with he | he
        · exact named e he
        · obtain rfl := List.mem_singleton.1 he
          exact hname
      · intro e he
        rcases List.mem_append.1 he with he | he
        · exact inner e he
        · obtain rfl := List.mem_singleton.1 he
          exact ht

/-- **A tree stays proper when something proper is put where there is room for it.** -/
theorem proper_put (h : t.Proper) (hroom : Room new t names) (hnew : new.Proper)
    (hnames : ∀ name, names.getLast? = some name → isName name = true) :
    (t.put new names).Proper := by
  induction hroom with
  | onto _ => exact hnew
  | @free entries name hfree => exact proper_setChild h (hnames name rfl) hnew
  | @inside entries name c rest hc hroom ih =>
    have hmem : (name, c) ∈ entries := (child?_eq_some_iff h.distinct_of_folder).1 hc
    have hrest : (c.put new rest).Proper := by
      refine ih (h.of_mem hmem) fun last hlast => hnames last ?_
      rw [List.getLast?_cons, hlast]
      rfl
    have hname : isName name = true := by
      cases h with
      | folder _ named _ => exact named _ hmem
    rw [FileTree.put, hc, Option.getD_some]
    exact proper_setChild h hname hrest

/-- What is in a proper tree is proper. -/
theorem Proper.of_get? {c : FileTree} {top : List String} (hproper : t.Proper)
    (h : t.get? top = some c) : c.Proper := by
  induction top generalizing t with
  | nil =>
    obtain rfl := Option.some.inj h
    exact hproper
  | cons name rest ih =>
    obtain ⟨child, hchild, hrest⟩ := Option.bind_eq_some_iff.1 h
    cases hproper with
    | file f => exact absurd hchild (by simp [child?])
    | folder distinct named inner =>
      exact ih (inner _ ((child?_eq_some_iff distinct).1 hchild)) hrest

/-- What is below a place of a tree. -/
theorem fileAt?_append {c : FileTree} {top : List String} (h : t.get? top = some c)
    (names : List String) : t.fileAt? (top ++ names) = c.fileAt? names := by
  rw [fileAt?, fileAt?, get?_append, h, Option.bind_some]

end FileTree

/-- No piece of a text has the separator in it. -/
theorem Text.not_mem_of_mem_pieces {sep : Char} {text piece : List Char}
    (h : piece ∈ pieces sep text) : sep ∉ piece := by
  induction text generalizing piece with
  | nil =>
    obtain rfl := List.mem_singleton.1 h
    exact List.not_mem_nil
  | cons c rest ih =>
    rw [pieces] at h
    split at h
    next =>
      rcases List.mem_cons.1 h with rfl | h
      · exact List.not_mem_nil
      · exact ih h
    next hne =>
      split at h
      next =>
        obtain rfl := List.mem_singleton.1 h
        simpa using Ne.symm hne
      next first others hpieces =>
        rw [hpieces] at ih
        rcases List.mem_cons.1 h with rfl | h
        · have hfirst : sep ∉ first := ih List.mem_cons_self
          simpa using ⟨Ne.symm hne, hfirst⟩
        · exact ih (List.mem_cons_of_mem _ h)

/-! ## Names in paths -/

namespace Path

/-- A path whose names are neither empty nor single dots and hold no slash. -/
def Plain (p : Path) : Prop := ∀ n ∈ p.parts, n ≠ "" ∧ n ≠ "." ∧ '/' ∉ n.toList

/-- A path that is read from a text is plain. -/
theorem plain_ofString (s : String) : (ofString s).Plain := by
  intro n hn
  obtain ⟨piece, hpiece, rfl⟩ := List.mem_map.1 hn
  obtain ⟨hmem, hkept⟩ := List.mem_filter.1 hpiece
  obtain ⟨hempty, hdot⟩ := of_decide_eq_true hkept
  refine ⟨fun h => hempty ?_, fun h => hdot ?_, ?_⟩
  · simpa using congrArg String.toList h
  · simpa using congrArg String.toList h
  · rw [String.toList_ofList]
    exact Text.not_mem_of_mem_pieces hmem

variable {p : Path}

/-- So is the path above a plain one. -/
theorem Plain.parent (h : p.Plain) : p.parent.Plain :=
  fun n hn => h n (List.dropLast_subset _ hn)

/-- The last name of a plain path is a name, unless it leads back. -/
theorem Plain.isName (h : p.Plain) (hparts : p.parts ≠ []) (hdots : p.name ≠ "..") :
    FileTree.isName p.name = true := by
  have hmem : p.name ∈ p.parts := by
    rw [Path.name, List.getLast?_eq_some_getLast hparts]
    exact List.getLast_mem hparts
  obtain ⟨hempty, hdot, hslash⟩ := h _ hmem
  exact FileTree.isName_iff.2 ⟨hempty, hdot, hdots, hslash⟩

end Path

/-! ## Proper disks -/

namespace Disk

open FileTree

variable {d d' : Disk} {p : Path} {place : List String}

/-- A tree stays proper when something is put behind a free name of a path. -/
theorem proper_put_free {new : FileTree} {entries : List (String × FileTree)}
    (h : d.tree.Proper) (hp : p.Plain) (hnew : new.Proper)
    (hmissing : d.locate p = .error .missing)
    (hparent : d.locate p.parent = .ok (place, .folder entries)) :
    (d.tree.put new (place ++ [p.name])).Proper := by
  obtain ⟨hparts, hdots, hfree⟩ := free_of_missing hmissing hparent rfl
  refine proper_put h (room_of_free (get?_of_locate hparent) hfree) hnew fun name hname => ?_
  rw [List.getLast?_concat] at hname
  obtain rfl := Option.some.inj hname
  exact hp.isName hparts hdots

/-- An empty folder is proper. -/
theorem proper_empty : (FileTree.folder []).Proper :=
  .folder List.nodup_nil (by simp) (by simp)

/-- **A folder that is made** is where its path leads, and the disk stays proper. -/
theorem makeFolder_eq_ok (h : d.makeFolder p = .ok d') :
    (∃ place, d'.locate p = .ok (place, .folder [])) ∧
      (d.tree.Proper → p.Plain → d'.tree.Proper) := by
  unfold makeFolder at h
  split at h
  · exact absurd h (by simp)
  next places entries hmissing hparent =>
    obtain rfl := Except.ok.inj h
    refine ⟨⟨_, locate_put_free (fun _ => rfl) hmissing hparent⟩, fun hproper hp => ?_⟩
    exact proper_put_free hproper hp proper_empty hmissing hparent
  · exact absurd h (by simp)
  · exact absurd h (by simp)

/-- Settling for a folder, a path leads to one. -/
theorem settle_eq_ok {made : Except Fault Disk} (hmade : ∀ {e}, made = .ok e →
      (∃ place, e.locate p = .ok (place, .folder [])) ∧
        (d.tree.Proper → p.Plain → e.tree.Proper))
    (h : makeFolders.settle d p made = .ok d') :
    (∃ place c, d'.locate p = .ok (place, c) ∧ c.isFolder = true) ∧
      (d.tree.Proper → p.Plain → d'.tree.Proper) := by
  unfold makeFolders.settle at h
  split at h
  next e =>
    obtain rfl := Except.ok.inj h
    obtain ⟨⟨place, hplace⟩, hproper⟩ := hmade rfl
    exact ⟨⟨place, _, hplace, rfl⟩, hproper⟩
  next f =>
    split at h
    next hfolder =>
      obtain rfl := Except.ok.inj h
      refine ⟨?_, fun hproper _ => hproper⟩
      unfold get? at hfolder
      cases hl : d.locate p with
      | error r => simp [hl, Except.toOption] at hfolder
      | ok found => exact ⟨found.1, found.2, rfl, by simpa [hl, Except.toOption] using hfolder⟩
    next => exact absurd h (by simp)

/-- **Folders that are made** are where their path leads, and the disk stays proper. -/
theorem makeFolders_eq_ok {depth : Nat} (h : d.makeFolders p depth = .ok d') :
    (∃ place c, d'.locate p = .ok (place, c) ∧ c.isFolder = true) ∧
      (d.tree.Proper → p.Plain → d'.tree.Proper) := by
  induction depth generalizing p d' with
  | zero => exact absurd h (by simp [makeFolders])
  | succ depth ih =>
    unfold makeFolders at h
    split at h
    next e he =>
      obtain rfl := Except.ok.inj h
      obtain ⟨⟨place, hplace⟩, hproper⟩ := makeFolder_eq_ok he
      exact ⟨⟨place, _, hplace, rfl⟩, hproper⟩
    next =>
      obtain ⟨e, habove, hsettle⟩ := bind_eq_ok.1 h
      obtain ⟨-, hproper⟩ := ih habove
      obtain ⟨hfolder, hsettled⟩ := settle_eq_ok makeFolder_eq_ok hsettle
      exact ⟨hfolder, fun htree hp => hsettled (hproper htree hp.parent) hp⟩
    next => exact settle_eq_ok makeFolder_eq_ok h

/-- **A disk stays proper when a text is written to a path.** -/
theorem proper_of_writeText {text : String} (hproper : d.tree.Proper) (hp : p.Plain)
    (h : d.writeText p text = .ok d') : d'.tree.Proper := by
  obtain ⟨e, hmake, hwrite⟩ := bind_eq_ok.1 h
  have hfolders : e.tree.Proper := (makeFolders_eq_ok hmake).2 hproper hp.parent
  unfold writeBytes at hwrite
  split at hwrite
  · exact absurd hwrite (by simp)
  next _ place f hlocate =>
    obtain rfl := Except.ok.inj hwrite
    have hget := get?_of_locate hlocate
    refine proper_put hfolders (room_of_file hget) (.file _) fun name hname => ?_
    -- the file was there, so its names are names
    have hfile : e.tree.fileAt? place = some f := by
      rw [FileTree.fileAt?, hget]
      rfl
    exact isName_of_fileAt? hfolders hfile name (List.mem_of_getLast? hname)
  next places entries hmissing hparent =>
    obtain rfl := Except.ok.inj hwrite
    exact proper_put_free hfolders hp (.file _) hmissing hparent
  · exact absurd hwrite (by simp)

/-! ## Writing again -/

/-- A folder cannot be made where something is. -/
theorem makeFolder_of_there {c : FileTree} (h : d.locate p = .ok (place, c)) :
    d.makeFolder p = .error ⟨.taken, p⟩ := by
  unfold makeFolder
  rw [h]

/-- A folder that is there needs not be made. -/
theorem makeFolders_of_isFolder {depth : Nat} {c : FileTree} (h : d.locate p = .ok (place, c))
    (hfolder : c.isFolder = true) : d.makeFolders p (depth + 1) = .ok d := by
  have hthere : ((d.get? p).map (·.isFolder)).getD false = true := by
    rw [get?, h]
    exact hfolder
  unfold makeFolders
  rw [makeFolder_of_there h]
  exact if_pos hthere

/-- **What was written can be written again**, whatever the text, and no folder is missing. -/
theorem exists_writeText_again {text : String} (h : d.writeText p text = .ok d') (other : String) :
    d'.missingAbove p = 0 ∧ ∃ d'', d'.writeText p other = .ok d'' := by
  obtain ⟨e, hmake, hwrite⟩ := bind_eq_ok.1 h
  obtain ⟨place, c, hc, hfolder⟩ := (makeFolders_eq_ok hmake).1
  obtain ⟨target, hchange, hlocate⟩ := writeBytes_eq_ok hwrite
  obtain ⟨c', hc', hkind⟩ := locate_of_change hchange hc
  have hagain : d'.makeFolders p.parent (p.parts.length + 1) = .ok d' :=
    makeFolders_of_isFolder hc' (hkind.trans hfolder)
  obtain ⟨d'', hd⟩ : ∃ d'', d'.writeBytes p (Text.Utf8.encode other.toList) = .ok d'' := by
    unfold writeBytes
    rw [hlocate]
    exact ⟨_, rfl⟩
  refine ⟨?_, d'', bind_eq_ok.2 ⟨d', hagain, hd⟩⟩
  unfold missingAbove missingFolders
  rw [makeFolder_of_there hc']

/-! ## Folders around writing -/

/-- **A folder around writing**: it stays where it is, and has the same files save the one that was
written. -/
theorem exists_folder_after {root : Path} {text : String} {entries : List (String × FileTree)}
    (hproper : d.tree.Proper) (hp : p.Plain) (hdir : d.get? root = some (.folder entries))
    (h : d.writeText p text = .ok d') :
    ∃ top place entries', d.locate root = .ok (top, .folder entries) ∧
      d'.locate root = .ok (top, .folder entries') ∧ d'.place? p = some place ∧
      (FileTree.folder entries).Proper ∧ (FileTree.folder entries').Proper ∧
      (∃ f, d'.tree.fileAt? place = some f) ∧
      ∀ names, top ++ names ≠ place →
        (FileTree.folder entries').fileAt? names = (FileTree.folder entries).fileAt? names := by
  obtain ⟨place, hchange, hlocate⟩ := writeText_eq_ok h
  obtain ⟨top, hl⟩ := exists_locate_of_get? hdir
  obtain ⟨c, hl', hkind⟩ := locate_of_change hchange hl
  have hget := get?_of_locate hl
  have hget' := get?_of_locate hl'
  cases c with
  | file f => exact absurd hkind (by simp [isFolder])
  | folder entries' =>
    refine ⟨top, place, entries', hl, hl', place?_of_locate hlocate, hproper.of_get? hget,
      (proper_of_writeText hproper hp h).of_get? hget', ?_, fun names hne => ?_⟩
    · rw [FileTree.fileAt?, get?_of_locate hlocate]
      exact ⟨_, rfl⟩
    · rw [← fileAt?_append hget, ← fileAt?_append hget']
      exact hchange.tree.files hne

end Disk

end CodeAudit
