import CodeAudit.Proofs.Disk.Rewriting

/-!
# Where a path leads

The text of a path is followed piece by piece between its slashes: nothing and a single dot stay
where they are, a double dot leads back, and any other piece leads on (`Path.leadsTo`). Resolving a
path does the same with its names (`Path.resolveParts_eq`). A path can be told from its text
(`Path.ofString_toString`), so it leads to the same place when its text is read again.
-/

namespace CodeAudit

theorem Text.subset_of_mem_pieces {sep : Char} {text piece : List Char}
    (h : piece ∈ pieces sep text) : piece ⊆ text := by
  induction text generalizing piece with
  | nil =>
    obtain rfl := List.mem_singleton.1 h
    exact List.Subset.refl _
  | cons c rest ih =>
    rw [pieces] at h
    split at h
    next =>
      rcases List.mem_cons.1 h with rfl | h
      · exact List.nil_subset _
      · exact List.subset_cons_of_subset _ (ih h)
    next =>
      split at h
      next =>
        obtain rfl := List.mem_singleton.1 h
        exact List.cons_subset_cons _ (List.nil_subset _)
      next first others hpieces =>
        rw [hpieces] at ih
        rcases List.mem_cons.1 h with rfl | h
        · exact List.cons_subset_cons _ (ih List.mem_cons_self)
        · exact List.subset_cons_of_subset _ (ih (List.mem_cons_of_mem _ h))

namespace Path

variable {folder names : List String} {text : List Char} {name : String} {p q : Path}

/-! ## Where a text leads -/

/-- One name further: a double dot leads back. -/
def turn (place : List String) (name : String) : List String :=
  if name = ".." then place.dropLast else place ++ [name]

/-- **Where a path text leads** from a folder, piece by piece between its slashes. Nothing and a
single dot stay where they are. -/
def leadsTo (folder : List String) (text : List Char) : List String :=
  (Text.pieces '/' text).foldl
    (fun place piece =>
      if piece = [] ∨ piece = ['.'] then place else turn place (String.ofList piece))
    (if text.head? = some '/' then [] else folder)

/-- Resolving double dots is following the names. -/
theorem resolveParts_eq (passed names : List String) :
    resolveParts passed names = names.foldl turn passed.reverse := by
  induction names generalizing passed with
  | nil => rw [resolveParts]; rfl
  | cons name rest ih =>
    rw [List.foldl_cons, turn]
    split
    next hdots =>
      subst hdots
      rw [resolveParts, ih, List.drop_one, List.dropLast_reverse]
    next hname =>
      rw [resolveParts.eq_3 _ _ _ hname, ih, List.reverse_cons]

theorem leadsTo_eq : leadsTo folder text =
    (Path.names text).foldl turn (if text.head? = some '/' then [] else folder) := by
  rw [leadsTo, Path.names, List.foldl_map, List.foldl_filter]
  congr 1
  funext place piece
  by_cases hpiece : piece = [] ∨ piece = ['.']
  · rw [if_pos hpiece, if_neg (by simpa [or_iff_not_imp_left] using hpiece)]
  · rw [if_neg hpiece, if_pos (by simpa [not_or] using hpiece)]

/-- Following names takes from the folder and from the names. -/
theorem mem_of_mem_foldl_turn (h : name ∈ names.foldl turn folder) :
    name ∈ folder ∨ name ∈ names ∧ name ≠ ".." := by
  induction names generalizing folder with
  | nil => exact .inl h
  | cons first rest ih =>
    rcases ih h with hfolder | ⟨hrest, hdots⟩
    · rw [turn] at hfolder
      split at hfolder
      · exact .inl (List.dropLast_subset _ hfolder)
      next hfirst =>
        rcases List.mem_append.1 hfolder with hfolder | hfolder
        · exact .inl hfolder
        · obtain rfl := List.mem_singleton.1 hfolder
          exact .inr ⟨List.mem_cons_self, hfirst⟩
    · exact .inr ⟨List.mem_cons_of_mem _ hrest, hdots⟩

theorem foldl_turn_of_straight (h : ".." ∉ names) : names.foldl turn folder = folder ++ names := by
  induction names generalizing folder with
  | nil => rw [List.foldl_nil, List.append_nil]
  | cons first rest ih =>
    rw [List.mem_cons, not_or] at h
    rw [List.foldl_cons, ih h.2, turn, if_neg (Ne.symm h.1), List.append_assoc]
    rfl

/-! ## Absolute paths -/

theorem resolve_of_absolute (h : p.isAbsolute = true) (cwd : Path) :
    resolve cwd p = ⟨.slash, p.parts.foldl turn []⟩ := by
  rw [resolve, join, if_pos h, resolveParts_eq]
  rfl

/-- A resolved path has no double dots. -/
theorem dots_not_mem_resolve (cwd p : Path) : ".." ∉ (resolve cwd p).parts := by
  rw [resolve, resolveParts_eq]
  intro h
  rcases mem_of_mem_foldl_turn h with h | ⟨-, h⟩
  · exact absurd h List.not_mem_nil
  · exact h rfl

theorem isAbsolute_ofString_iff {s : String} :
    (ofString s).isAbsolute = true ↔ s.toList.head? = some '/' := by
  show (rootOf s.toList != .relative) = true ↔ _
  generalize s.toList = text
  unfold rootOf
  split
  case h_4 hother =>
    refine iff_of_false (by decide) fun h => ?_
    obtain ⟨rest, hrest⟩ := List.head?_eq_some_iff.1 h
    exact hother rest hrest
  all_goals exact iff_of_true rfl rfl

/-- The text of plain names does not start with a slash. -/
theorem head?_intercalate (h : ∀ n ∈ names, n ≠ "" ∧ n ≠ "." ∧ '/' ∉ n.toList) :
    ("/".intercalate names).toList.head? ≠ some '/' := by
  intro hhead
  obtain ⟨rest, hrest⟩ := List.head?_eq_some_iff.1 hhead
  cases names with
  | nil => exact absurd hrest (by simp)
  | cons first others =>
    have hpieces := pieces_intercalate (List.cons_ne_nil first others) fun n hn => (h n hn).2.2
    rw [hrest, Text.pieces, if_pos rfl, List.map_cons] at hpieces
    have hempty : first.toList = [] := (List.cons.inj hpieces).1.symm
    exact (h first List.mem_cons_self).1 (String.toList_inj.1 hempty)

/-- A slash in front adds no name. -/
theorem names_slash : Path.names ('/' :: text) = Path.names text := by
  rw [Path.names, Text.pieces, if_pos rfl, List.filter_cons_of_neg (by simp), Path.names]

/-- The root of a path can be told from its text. -/
theorem rootOf_append {root : Root} (hroot : root ≠ .relative) (h : text.head? ≠ some '/') :
    rootOf ((rootText root).toList ++ text) = root := by
  cases root with
  | relative => exact absurd rfl hroot
  | slash | doubleSlash =>
    simp only [rootText, String.reduceToList, List.cons_append, List.nil_append]
    unfold rootOf
    split <;> grind

theorem names_append_rootText {root : Root} :
    Path.names ((rootText root).toList ++ text) = Path.names text := by
  cases root with
  | relative => rfl
  | slash => exact names_slash
  | doubleSlash => exact names_slash.trans names_slash

theorem toList_toString (habsolute : p.isAbsolute = true) :
    p.toString.toList = (rootText p.root).toList ++ ("/".intercalate p.parts).toList := by
  rw [toString, if_neg fun h => bne_iff_ne.1 habsolute h.1, String.toList_append]

/-- **The text of an absolute path tells the path.** -/
theorem ofString_toString (hplain : p.Plain) (habsolute : p.isAbsolute = true) :
    ofString p.toString = p := by
  have hroot : rootOf p.toString.toList = p.root := by
    rw [toList_toString habsolute,
      rootOf_append (bne_iff_ne.1 habsolute) (head?_intercalate hplain)]
  have hparts : Path.names p.toString.toList = p.parts := by
    rw [toList_toString habsolute, names_append_rootText, names_intercalate hplain]
  exact congr (congrArg Path.mk hroot) hparts

/-! ## Characters -/

theorem mem_intercalate_iff {c : Char} : c ∈ ("/".intercalate names).toList ↔
    (∃ n ∈ names, c ∈ n.toList) ∨ c = '/' ∧ 2 ≤ names.length := by
  induction names with
  | nil => simp
  | cons first rest ih =>
    cases rest with
    | nil => simp
    | cons next rest =>
      rw [String.intercalate_cons_cons, String.toList_append, String.toList_append,
        List.mem_append, List.mem_append, ih]
      have hslash : c ∈ "/".toList ↔ c = '/' := by simp
      grind

/-- The characters of an absolute path are those of its names, and slashes. -/
theorem mem_toString_iff {c : Char} (hc : c ≠ '/') (h : p.isAbsolute = true) :
    c ∈ p.toString.toList ↔ ∃ n ∈ p.parts, c ∈ n.toList := by
  have hroot : c ∉ (rootText p.root).toList := by
    cases p.root <;> simp [rootText, hc]
  rw [toList_toString h, List.mem_append, mem_intercalate_iff]
  simp [hroot, hc]

/-- The names in a text are made of its characters. -/
theorem mem_of_mem_names {c : Char} (h : name ∈ Path.names text) (hc : c ∈ name.toList) :
    c ∈ text := by
  obtain ⟨piece, hpiece, rfl⟩ := List.mem_map.1 h
  rw [String.toList_ofList] at hc
  exact Text.subset_of_mem_pieces (List.mem_filter.1 hpiece).1 hc

end Path

namespace Disk

open FileTree

variable {d : Disk} {p : Path} {root t c : FileTree} {above : List (FileTree × String)}
  {names : List String}

/-- In a proper tree only plain names can be followed. -/
theorem plain_of_follow (hproper : root.Proper) (hway : Way root above t)
    {found : List String × FileTree} (h : follow above t names = .ok found) :
    ∀ n ∈ names, n ≠ "" ∧ n ≠ "." ∧ '/' ∉ n.toList := by
  induction names generalizing above t with
  | nil => simp
  | cons name rest ih =>
    obtain ⟨-, above', t', hturn, hrest⟩ := follow_cons_eq_ok.1 h
    refine List.forall_mem_cons.2 ⟨?_, ih (hway.turn hturn) hrest⟩
    cases hturn with
    | stay | back => decide
    | down _ hc =>
      cases hproper.of_get? hway.get? with
      | file f => exact absurd hc (by simp [child?])
      | folder distinct named inner =>
        obtain ⟨hempty, hdot, -, hslash⟩ :=
          isName_iff.1 (named _ ((child?_eq_some_iff distinct).1 hc))
        exact ⟨hempty, hdot, hslash⟩

/-- What is on a disk has a plain path without null characters. -/
theorem plain_of_get? (hproper : d.tree.Proper) (habsolute : p.isAbsolute = true)
    (h : d.get? p = some c) : p.Plain ∧ ∀ n ∈ p.parts, Char.ofNat 0 ∉ n.toList := by
  obtain ⟨place, hplace⟩ := exists_locate_of_get? h
  obtain ⟨hfit, hfollow⟩ := locate_eq_ok.1 hplace
  rw [Path.join, if_pos habsolute] at hfollow
  refine ⟨plain_of_follow hproper .top hfollow, fun n hn hnull => ?_⟩
  have htext : Char.ofNat 0 ∈ p.toString.toList :=
    (Path.mem_toString_iff (by decide) habsolute).2 ⟨n, hn, hnull⟩
  rw [unfit?, if_pos (by simpa using htext)] at hfit
  exact absurd hfit (by simp)

end Disk

end CodeAudit
