import CodeAudit.Disk.Tree

/-!
# Changes of a file tree

A place is a list of names from the top. Writing changes one place and nothing else: what was there
stays, a file stays a file and a folder a folder, and every file elsewhere stays as it is
(`FileTree.Change`). Whatever is put where there is room for it (`Room`) makes such a change.
-/

namespace CodeAudit

namespace FileTree

variable {t t' u new : FileTree} {names places : List String} {name : String}

/-- The file at a place. -/
def fileAt? (t : FileTree) (place : List String) : Option File := (t.get? place).bind file?

/-- The places below the names of a tree. -/
theorem get?_append (t : FileTree) (names more : List String) :
    t.get? (names ++ more) = (t.get? names).bind (·.get? more) := by
  induction names generalizing t with
  | nil => rfl
  | cons name names ih =>
    simp only [List.cons_append, get?]
    cases t.child? name with
    | none => rfl
    | some c => exact ih c

/-- The first entry with a name counts. -/
theorem child?_cons (e : String × FileTree) (entries : List (String × FileTree)) (name : String) :
    (folder (e :: entries)).child? name =
      if e.1 = name then some e.2 else (folder entries).child? name := by
  simp only [child?, List.find?_cons]
  split
  next h => rw [if_pos (beq_iff_eq.1 h), Option.map_some]
  next h => rw [if_neg (beq_eq_false_iff_ne.1 h)]

/-- What is behind a name among entries of which one was replaced. -/
theorem child?_replace (entries : List (String × FileTree)) (name other : String)
    (t : FileTree) :
    (folder (entries.map fun e => if e.1 == name then (name, t) else e)).child? other =
      if other = name then ((folder entries).child? name).map (fun _ => t)
      else (folder entries).child? other := by
  induction entries with
  | nil => simp [child?]
  | cons e entries ih =>
    rw [List.map_cons, child?_cons, child?_cons, child?_cons, ih]
    by_cases he : e.1 = name
    · rw [if_pos (beq_iff_eq.2 he), if_pos he]
      by_cases ho : other = name
      · rw [if_pos ho.symm, if_pos ho]
        rfl
      · have hne : ¬ e.1 = other := fun h => ho (h.symm.trans he)
        rw [if_neg (fun h => ho h.symm), if_neg ho, if_neg ho, if_neg hne]
    · rw [if_neg (fun h => he (beq_iff_eq.1 h)), if_neg he]
      by_cases ho : e.1 = other
      · rw [if_pos ho, if_neg (fun h => he (ho.trans h)), if_pos ho]
      · rw [if_neg ho, if_neg ho]

/-- An entry with a name is there if the name is. -/
theorem child?_isSome (entries : List (String × FileTree)) (name : String) :
    ((folder entries).child? name).isSome = entries.any (·.1 == name) := by
  rw [child?, Option.isSome_map, List.isSome_find?]

/-- **What is behind a name, once it is set**: the new tree, and the old ones behind other names. -/
theorem child?_setChild (entries : List (String × FileTree)) (name other : String)
    (t : FileTree) :
    (folder (setChild entries name t)).child? other =
      if other = name then some t else (folder entries).child? other := by
  unfold setChild
  rw [← child?_isSome]
  split
  next hsome =>
    obtain ⟨c, hc⟩ := Option.isSome_iff_exists.1 hsome
    rw [child?_replace, hc]
    rfl
  next hnone =>
    rw [Bool.not_eq_true, Option.isSome_eq_false_iff, Option.isNone_iff_eq_none] at hnone
    have happend : (folder (entries ++ [(name, t)])).child? other =
        ((folder entries).child? other).or (if name = other then some t else none) := by
      simp only [child?, List.find?_append, Option.map_or, List.find?_singleton, beq_iff_eq]
      split <;> rfl
    rw [happend]
    by_cases ho : other = name
    · rw [ho, hnone, if_pos rfl, Option.none_or]
    · rw [if_neg (fun h => ho h.symm), if_neg ho, Option.or_none]

/-- One step down after something was put behind a name. -/
theorem get?_put_cons (entries : List (String × FileTree)) (name other : String)
    (rest more : List String) :
    ((folder entries).put new (name :: rest)).get? (other :: more) =
      if other = name then
        ((((folder entries).child? name).getD (folder [])).put new rest).get? more
      else (folder entries).get? (other :: more) := by
  simp only [put, get?, child?_setChild]
  split <;> rfl

/-! ## Changes -/

/-- **A change at some places**: what is in a tree stays and keeps its kind, and the files at other
places stay as they are. -/
structure Change (touched : List String → Prop) (t t' : FileTree) : Prop where
  keeps : ∀ {names c}, t.get? names = some c → ∃ c', t'.get? names = some c' ∧
    c'.isFolder = c.isFolder
  files : ∀ {names}, ¬ touched names → t'.fileAt? names = t.fileAt? names

/-- No change. -/
theorem Change.refl (touched : List String → Prop) (t : FileTree) : Change touched t t :=
  ⟨fun h => ⟨_, h, rfl⟩, fun _ => rfl⟩

/-- One change after another. -/
theorem Change.trans {touched : List String → Prop} (h : Change touched t u)
    (h' : Change touched u t') : Change touched t t' := by
  constructor
  · intro names c hc
    obtain ⟨c₁, hc₁, hkind₁⟩ := h.keeps hc
    obtain ⟨c₂, hc₂, hkind₂⟩ := h'.keeps hc₁
    exact ⟨c₂, hc₂, hkind₂.trans hkind₁⟩
  · intro names hn
    rw [h'.files hn, h.files hn]

/-- A change at fewer places is a change at more. -/
theorem Change.mono {touched more : List String → Prop} (h : Change touched t t')
    (hsub : ∀ names, touched names → more names) : Change more t t' :=
  ⟨h.keeps, fun hn => h.files fun ht => hn (hsub _ ht)⟩

/-- **A place where a tree without parts can be put**: a file that gives way to another, or a name
that is free in a folder. -/
inductive Room (new : FileTree) : FileTree → List String → Prop
  | onto {f : File} (h : new.isFolder = false) : Room new (file f) []
  | free {entries : List (String × FileTree)} {name : String}
      (h : (folder entries).child? name = none) : Room new (folder entries) [name]
  | inside {entries : List (String × FileTree)} {name : String} {c : FileTree}
      {rest : List String} (hc : (folder entries).child? name = some c) (h : Room new c rest) :
      Room new (folder entries) (name :: rest)

/-- There is room where a file is, for another file. -/
theorem room_of_file {f g : File} (h : t.get? names = some (file f)) :
    Room (file g) t names := by
  induction names generalizing t with
  | nil =>
    obtain rfl : t = file f := Option.some.inj h
    exact .onto rfl
  | cons name names ih =>
    cases t with
    | file f => simp [get?, child?] at h
    | folder entries =>
      obtain ⟨c, hc, hrest⟩ := Option.bind_eq_some_iff.1 h
      exact .inside hc (ih hrest)

/-- There is room behind a free name of a folder. -/
theorem room_of_free {entries : List (String × FileTree)} (h : t.get? names = some (folder entries))
    (hname : (folder entries).child? name = none) : Room new t (names ++ [name]) := by
  induction names generalizing t with
  | nil =>
    obtain rfl : t = folder entries := Option.some.inj h
    exact .free hname
  | cons n names ih =>
    cases t with
    | file f => simp [get?, child?] at h
    | folder others =>
      obtain ⟨c, hc, hrest⟩ := Option.bind_eq_some_iff.1 h
      exact .inside hc (ih hrest)

/-- What is put somewhere is there. -/
theorem get?_put (h : Room new t names) : (t.put new names).get? names = some new := by
  induction h with
  | onto _ => rfl
  | free h =>
    rw [get?_put_cons, if_pos rfl]
    rfl
  | inside hc _ ih => simpa [get?_put_cons, hc] using ih

/-- A tree without parts in the place of a file is a change of the file. -/
theorem change_put_onto (hleaf : ∀ name, new.child? name = none) (hnew : new.isFolder = false)
    (f : File) : Change (· = []) (file f) ((file f).put new []) := by
  constructor
  · intro names c hc
    cases names with
    | nil =>
      obtain rfl := Option.some.inj hc
      exact ⟨new, rfl, hnew⟩
    | cons name names => simp [get?, child?] at hc
  · intro names hne
    obtain ⟨name, rest, rfl⟩ := List.exists_cons_of_ne_nil hne
    rw [fileAt?, put, get?, hleaf]
    rfl

/-- **A change behind a name is a change of the folder.** -/
theorem change_behind {entries : List (String × FileTree)} {name : String} {rest : List String}
    {behind : FileTree} (hbehind : ((folder entries).child? name).getD (folder []) = behind)
    (hkeeps : ∀ {c more x}, (folder entries).child? name = some c → c.get? more = some x →
      ∃ x', (behind.put new rest).get? more = some x' ∧ x'.isFolder = x.isFolder)
    (hfiles : ∀ {more}, more ≠ rest →
      (behind.put new rest).fileAt? more = ((folder entries).child? name).bind (·.fileAt? more)) :
    Change (· = name :: rest) (folder entries) ((folder entries).put new (name :: rest)) := by
  constructor
  · intro names c hc
    cases names with
    | nil =>
      obtain rfl := Option.some.inj hc
      exact ⟨_, rfl, rfl⟩
    | cons other more =>
      rw [get?_put_cons, hbehind]
      split
      next ho =>
        rw [ho] at hc
        obtain ⟨child, hchild, hmore⟩ := Option.bind_eq_some_iff.1 hc
        exact hkeeps hchild hmore
      next => exact ⟨c, hc, rfl⟩
  · intro names hne
    cases names with
    | nil => rfl
    | cons other more =>
      rw [fileAt?, get?_put_cons, hbehind]
      split
      next ho =>
        have hmore : more ≠ rest := fun h => hne (by rw [ho, h])
        have hafter := hfiles hmore
        rw [fileAt?] at hafter
        rw [hafter, ho, fileAt?, get?, Option.bind_assoc]
        rfl
      next => rfl

/-- **What is put where there is room is a change there.** -/
theorem change_put (hleaf : ∀ name, new.child? name = none) (h : Room new t names) :
    Change (· = names) t (t.put new names) := by
  induction h with
  | onto hnew => exact change_put_onto hleaf hnew _
  | free hfree =>
    refine change_behind rfl (fun hc => absurd hc (by simp [hfree])) fun hmore => ?_
    obtain ⟨n, rest, rfl⟩ := List.exists_cons_of_ne_nil hmore
    simp [hfree, fileAt?, put, get?, hleaf]
  | @inside entries name c rest hc _ ih =>
    have hbehind : ((folder entries).child? name).getD (folder []) = c := by
      rw [hc, Option.getD_some]
    refine change_behind hbehind (fun hchild hget => ?_) fun hmore => ?_
    · obtain rfl := Option.some.inj (hc.symm.trans hchild)
      exact ih.keeps hget
    · rw [hc, ih.files hmore]
      rfl

/-- **A new folder changes no file.** -/
theorem change_put_folder {entries : List (String × FileTree)}
    (h : t.get? names = some (folder entries)) (hname : (folder entries).child? name = none) :
    Change (fun _ => False) t (t.put (folder []) (names ++ [name])) := by
  have hroom : Room (folder []) t (names ++ [name]) := room_of_free h hname
  have hput := change_put (fun _ => rfl) hroom
  refine ⟨hput.keeps, fun {places} _ => ?_⟩
  by_cases hp : places = names ++ [name]
  · subst hp
    simp [fileAt?, get?_put hroom, get?_append, h, get?, hname, file?]
  · exact hput.files hp

end FileTree

end CodeAudit
