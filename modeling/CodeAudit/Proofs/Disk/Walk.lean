import CodeAudit.Proofs.Disk.Change
import Mathlib.Data.List.Sort

/-!
# Walking a file tree

A walk goes down only where it is let in, and yet it finds every file whose way is open, and each
once (`mem_walk_iff`); and it finds them in an order that the names alone decide
(`pairwise_walk`), so that it does not matter how a folder lists what is in it.
-/

namespace CodeAudit.FileTree

/-- Whether a file or folder can have a name. -/
def isName (name : String) : Bool :=
  name ≠ "" && name ≠ "." && name ≠ ".." && !name.toList.contains '/'

/-- **A tree as it can lie on a disk**: what is in a folder has names, and no two the same one. -/
inductive Proper : FileTree → Prop
  | file (f : File) : Proper (.file f)
  | folder {entries : List (String × FileTree)} (distinct : (entries.map (·.1)).Nodup)
      (named : ∀ e ∈ entries, isName e.1 = true) (inner : ∀ e ∈ entries, Proper e.2) :
      Proper (.folder entries)

variable {t t' : FileTree} {entries : List (String × FileTree)} {enter : List String → Bool}
  {path names : List String} {name : String} {f : File}

/-- The names in a folder are distinct. -/
theorem Proper.distinct_of_folder (h : Proper (.folder entries)) : (entries.map (·.1)).Nodup := by
  cases h with
  | folder distinct _ _ => exact distinct

/-- What is in a folder is as proper. -/
theorem Proper.of_mem (h : Proper (.folder entries)) {e : String × FileTree} (he : e ∈ entries) :
    e.2.Proper := by
  cases h with
  | folder _ _ inner => exact inner e he

/-! ## What is in a folder -/

/-- Behind a name is the entry that has it. -/
theorem child?_eq_some_iff (distinct : (entries.map (·.1)).Nodup) {c : FileTree} :
    (folder entries).child? name = some c ↔ (name, c) ∈ entries := by
  induction entries with
  | nil => simp [child?]
  | cons e entries ih =>
    rw [List.map_cons, List.nodup_cons] at distinct
    rw [child?_cons, List.mem_cons]
    split
    next h =>
      subst h
      have hother : (e.1, c) ∉ entries := fun hmem => distinct.1 (List.mem_map.2 ⟨_, hmem, rfl⟩)
      constructor
      · intro hc
        exact .inl (Prod.ext rfl (Option.some.inj hc).symm)
      · rintro (hc | hc)
        · rw [← hc]
        · exact absurd hc hother
    next h =>
      rw [ih distinct.2]
      refine ⟨.inr, fun hc => hc.resolve_left ?_⟩
      rintro rfl
      exact h rfl

/-- The file at a place below a name. -/
theorem fileAt?_cons (t : FileTree) (name : String) (rest : List String) :
    t.fileAt? (name :: rest) = (t.child? name).bind (·.fileAt? rest) := by
  simp only [fileAt?, get?, Option.bind_assoc]

/-- The file at a place below a folder. -/
theorem fileAt?_folder_cons (distinct : (entries.map (·.1)).Nodup) {rest : List String} :
    (folder entries).fileAt? (name :: rest) = some f ↔
      ∃ c, (name, c) ∈ entries ∧ c.fileAt? rest = some f := by
  simp only [fileAt?_cons, Option.bind_eq_some_iff, child?_eq_some_iff distinct]

/-- A folder is no file. -/
theorem ne_nil_of_fileAt? (h : (folder entries).fileAt? names = some f) : names ≠ [] := by
  rintro rfl
  exact absurd h (by simp [fileAt?, get?, file?])

/-- A file holds no other. -/
theorem fileAt?_file {g : File} : (file g).fileAt? names = some f ↔ names = [] ∧ g = f := by
  cases names with
  | nil => simp [fileAt?, get?, file?]
  | cons name rest => simp [fileAt?, get?, child?]

/-- The files of a folder are its entries that are files. -/
theorem mem_filesIn_iff : (name, f) ∈ filesIn entries ↔ (name, file f) ∈ entries := by
  rw [filesIn, byName, List.mem_mergeSort, List.mem_filterMap]
  constructor
  · rintro ⟨⟨n, c⟩, hc, heq⟩
    obtain ⟨g, hg, heq⟩ := Option.map_eq_some_iff.1 heq
    obtain ⟨rfl, rfl⟩ := Prod.mk.inj heq
    cases c with
    | file g' =>
      obtain rfl := Option.some.inj hg
      exact hc
    | folder inner => exact absurd hg (by simp [file?])
  · intro h
    exact ⟨_, h, rfl⟩

/-- What a walk finds behind an entry: the files of a folder that it enters. -/
def behind? (enter : List String → Bool) (path : List String) (e : String × FileTree) :
    Option (List (List String × File)) :=
  if e.2.isFolder && enter (e.1 :: path).reverse then some (e.2.walk enter (e.1 :: path))
  else none

/-- **The folders of a walk, entry by entry.** -/
theorem walkFolders_eq : walkFolders enter path entries =
    entries.filterMap fun e => (behind? enter path e).map fun found => (e.1, found) := by
  induction entries with
  | nil => rfl
  | cons e rest ih =>
    obtain ⟨name, c⟩ := e
    cases c with
    | file f => rw [walkFolders, ih]; rfl
    | folder inner =>
      have hbehind : behind? enter path (name, folder inner) =
          if enter (name :: path).reverse then some ((folder inner).walk enter (name :: path))
          else none := by
        simp only [behind?, isFolder, Bool.true_and]
      rw [walkFolders, ih, List.filterMap_cons, hbehind]
      split <;> rfl

/-- What a walk finds in the folders of a folder. -/
theorem mem_walkFolders_iff {found : List (List String × File)} :
    (name, found) ∈ byName (walkFolders enter path entries) ↔
      ∃ inner, (name, folder inner) ∈ entries ∧ enter (name :: path).reverse = true ∧
        (folder inner).walk enter (name :: path) = found := by
  rw [byName, List.mem_mergeSort, walkFolders_eq, List.mem_filterMap]
  constructor
  · rintro ⟨⟨n, c⟩, hc, hmap⟩
    obtain ⟨_, hbehind, heq⟩ := Option.map_eq_some_iff.1 hmap
    obtain ⟨rfl, rfl⟩ := Prod.mk.inj heq
    rw [behind?, Option.ite_none_right_eq_some, Bool.and_eq_true] at hbehind
    obtain ⟨⟨hkind, henter⟩, hfound⟩ := hbehind
    cases c with
    | file g => exact absurd hkind (by simp [isFolder])
    | folder inner => exact ⟨inner, hc, henter, Option.some.inj hfound⟩
  · rintro ⟨inner, hc, henter, rfl⟩
    exact ⟨_, hc, by simp only [behind?, isFolder, henter, Bool.and_self, if_true,
      Option.map_some]⟩

/-! ## Which files are found -/

/-- **Whether every folder on the way to a file is entered.** -/
def WayOpen (enter : List String → Bool) (path names : List String) : Prop :=
  ∀ above rest, names = above ++ rest → above ≠ [] → rest ≠ [] →
    enter (path.reverse ++ above) = true

/-- No folder is on the way to an entry of a folder. -/
theorem wayOpen_single : WayOpen enter path [name] := by
  intro above rest h habove hrest
  obtain ⟨a, above, rfl⟩ := List.exists_cons_of_ne_nil habove
  obtain ⟨b, rest, rfl⟩ := List.exists_cons_of_ne_nil hrest
  exact absurd (congrArg List.length h) (by simp)

/-- The way to a file below a folder leads through the folder. -/
theorem wayOpen_cons (hne : names ≠ []) : WayOpen enter path (name :: names) ↔
    enter (name :: path).reverse = true ∧ WayOpen enter (name :: path) names := by
  constructor
  · intro h
    refine ⟨by simpa using h [name] names rfl (by simp) hne, ?_⟩
    rintro above rest rfl habove hrest
    simpa using h (name :: above) rest rfl (by simp) hrest
  · rintro ⟨hfolder, hinner⟩ above rest h habove hrest
    obtain ⟨a, above, rfl⟩ := List.exists_cons_of_ne_nil habove
    obtain ⟨rfl, rfl⟩ := List.cons.inj h
    by_cases hdeeper : above = []
    · subst hdeeper
      simpa using hfolder
    · simpa using hinner above rest rfl hdeeper hrest

/-- **A walk finds the files whose way is open.** -/
theorem mem_walk_iff (h : t.Proper) {x : List String × File} :
    x ∈ t.walk enter path ↔
      ∃ names, x.1 = path.reverse ++ names ∧ t.fileAt? names = some x.2 ∧
        WayOpen enter path names := by
  induction h generalizing path x with
  | file f =>
    rw [walk, List.mem_singleton]
    constructor
    · rintro rfl
      exact ⟨[], by simp, rfl, fun above rest h habove => absurd (List.append_eq_nil_iff.1 h.symm).1
        habove⟩
    · rintro ⟨names, hnames, hfile, -⟩
      obtain ⟨rfl, rfl⟩ := fileAt?_file.1 hfile
      exact Prod.ext (by simpa using hnames) rfl
  | @folder entries distinct named inner ih =>
    rw [walk, List.mem_append, List.mem_map, List.mem_flatMap]
    constructor
    · rintro (⟨⟨name, f⟩, hf, rfl⟩ | ⟨⟨name, found⟩, hfound, hx⟩)
      · -- a file of the folder itself
        exact ⟨[name], by simp, (fileAt?_folder_cons distinct).2 ⟨_, mem_filesIn_iff.1 hf, rfl⟩,
          wayOpen_single⟩
      · -- a file of a folder in the folder
        obtain ⟨deeper, hc, henter, rfl⟩ := mem_walkFolders_iff.1 hfound
        obtain ⟨rest, hrest, hfile, hway⟩ := (ih _ hc).1 hx
        exact ⟨name :: rest, by simpa using hrest, (fileAt?_folder_cons distinct).2 ⟨_, hc, hfile⟩,
          (wayOpen_cons (ne_nil_of_fileAt? hfile)).2 ⟨henter, hway⟩⟩
    · rintro ⟨names, hnames, hfile, hway⟩
      obtain ⟨name, rest, rfl⟩ := List.exists_cons_of_ne_nil (ne_nil_of_fileAt? hfile)
      obtain ⟨c, hc, hrest⟩ := (fileAt?_folder_cons distinct).1 hfile
      cases c with
      | file g =>
        obtain ⟨rfl, rfl⟩ := fileAt?_file.1 hrest
        exact .inl ⟨(name, x.2), mem_filesIn_iff.2 hc, Prod.ext (by simpa using hnames.symm) rfl⟩
      | folder deeper =>
        obtain ⟨henter, hinner⟩ := (wayOpen_cons (ne_nil_of_fileAt? hrest)).1 hway
        exact .inr ⟨(name, _), mem_walkFolders_iff.2 ⟨deeper, hc, henter, rfl⟩,
          (ih _ hc).2 ⟨rest, by simpa using hnames, hrest, hinner⟩⟩

/-! ## In which order -/

/-- **Whether a file comes before another**, where the files of a folder come before its folders,
and both by their names. -/
def Before : List String → List String → Prop
  | [a], [b] => a < b
  | [_], _ :: _ :: _ => True
  | a :: a' :: as, b :: b' :: bs => a < b ∨ a = b ∧ Before (a' :: as) (b' :: bs)
  | _, _ => False

/-- No file comes before itself. -/
theorem not_before_self (names : List String) : ¬ Before names names := by
  induction names with
  | nil => simp [Before]
  | cons a names ih =>
    cases names with
    | nil => exact String.lt_irrefl a
    | cons b names => simpa [Before, String.lt_irrefl] using ih

/-- A file that comes before another is another one. -/
theorem Before.ne {m n : List String} (h : Before m n) : m ≠ n := by
  rintro rfl
  exact not_before_self m h

/-- Of two files only one comes before the other. -/
theorem Before.asymm {m n : List String} (h : Before m n) : ¬ Before n m := by
  fun_induction Before m n with
  | case1 a b => simpa [Before] using String.lt_asymm h
  | case2 => simp [Before]
  | case3 a a' as b b' bs ih =>
    rw [Before]
    rintro (hba | ⟨rfl, hafter⟩)
    · rcases h with hab | ⟨rfl, -⟩
      · exact String.lt_asymm hab hba
      · exact String.lt_irrefl _ hba
    · rcases h with hab | ⟨-, hbefore⟩
      · exact String.lt_irrefl _ hab
      · exact ih hbefore hafter
  | case4 => exact absurd h id

/-- The order of files by their names. -/
abbrev Earlier (x y : List String × File) : Prop := Before x.1 y.1

instance : Std.Irrefl Earlier := ⟨fun x => not_before_self x.1⟩

instance : Std.Asymm Earlier := ⟨fun _ _ => Before.asymm⟩

/-- Things with distinct names are put in the strict order of their names. -/
theorem pairwise_byName {α : Type} {items : List (String × α)}
    (distinct : (items.map (·.1)).Nodup) : (byName items).Pairwise fun a b => a.1 < b.1 := by
  have hsorted : (byName items).Pairwise fun a b => (!(b.1 < a.1 : Bool)) = true := by
    refine List.pairwise_mergeSort (fun a b c hab hbc => ?_) (fun a b => ?_) items
    · simp only [Bool.not_eq_true', decide_eq_false_iff_not, String.not_lt] at hab hbc ⊢
      exact String.le_trans hab hbc
    · simp only [Bool.or_eq_true, Bool.not_eq_true', decide_eq_false_iff_not, String.not_lt]
      exact String.le_total a.1 b.1
  have hnames : ((byName items).map (·.1)).Nodup :=
    ((List.mergeSort_perm items _).map (·.1)).nodup_iff.2 distinct
  refine (hsorted.and (List.pairwise_map.1 hnames)).imp fun ⟨hle, hne⟩ => ?_
  simp only [Bool.not_eq_true', decide_eq_false_iff_not, String.not_lt] at hle
  exact String.not_le.1 fun hge => hne (String.le_antisymm hle hge)

/-- What is picked from entries keeps their names. -/
theorem nodup_picked {α : Type} (distinct : (entries.map (·.1)).Nodup)
    (pick : String × FileTree → Option α) :
    ((entries.filterMap fun e => (pick e).map fun a => (e.1, a)).map (·.1)).Nodup := by
  have hpick : ((entries.filterMap fun e => (pick e).map fun a => (e.1, a)).map (·.1)) =
      (entries.filter fun e => (pick e).isSome).map (·.1) := by
    induction entries with
    | nil => rfl
    | cons e entries ih =>
      rw [List.map_cons, List.nodup_cons] at distinct
      rw [List.filterMap_cons, List.filter_cons]
      cases pick e <;> simp [ih distinct.2]
  rw [hpick]
  exact (List.filter_sublist.map _).nodup distinct

/-- Files below two folders come in the order of the folders, or else in their own. -/
theorem before_cons {a b : String} {m n : List String} (hm : m ≠ []) (hn : n ≠ []) :
    Before (a :: m) (b :: n) ↔ a < b ∨ a = b ∧ Before m n := by
  obtain ⟨a', m, rfl⟩ := List.exists_cons_of_ne_nil hm
  obtain ⟨b', n, rfl⟩ := List.exists_cons_of_ne_nil hn
  rw [Before]

/-- A file comes before those in folders beside it. -/
theorem before_of_single {a b : String} {n : List String} (hn : n ≠ []) : Before [a] (b :: n) := by
  obtain ⟨b', n, rfl⟩ := List.exists_cons_of_ne_nil hn
  trivial

/-- What is found below a folder has the folder's name, and more names after it. -/
theorem exists_rest_of_mem_walk {inner : List (String × FileTree)} (h : (folder inner).Proper)
    {x : List String × File} (hx : x ∈ (folder inner).walk enter (name :: path)) :
    ∃ rest, rest ≠ [] ∧ x.1.drop path.length = name :: rest ∧
      x.1.drop (name :: path).length = rest := by
  obtain ⟨rest, hrest, hfile, -⟩ := (mem_walk_iff h).1 hx
  have hsplit : x.1 = path.reverse ++ name :: rest := by simpa using hrest
  refine ⟨rest, ne_nil_of_fileAt? hfile, ?_, ?_⟩
  · rw [hsplit, List.drop_left' (List.length_reverse ..)]
  · rw [hrest, List.drop_left' (List.length_reverse ..)]

/-- **A walk finds its files in order.** -/
theorem pairwise_walk (h : t.Proper) : (t.walk enter path).Pairwise fun x y =>
    Before (x.1.drop path.length) (y.1.drop path.length) := by
  induction h generalizing path with
  | file f => rw [walk]; exact List.pairwise_singleton _ _
  | @folder entries distinct named inner ih =>
    rw [walk, List.pairwise_append, List.pairwise_map, List.pairwise_flatMap]
    refine ⟨?_, ⟨?_, ?_⟩, ?_⟩
    · -- two files of the folder
      refine (pairwise_byName (nodup_picked distinct _)).imp fun hlt => ?_
      simpa [Before] using hlt
    · -- two files of one folder in it
      rintro ⟨name, found⟩ hfound
      obtain ⟨deeper, hc, -, rfl⟩ := mem_walkFolders_iff.1 hfound
      refine (ih _ hc).imp_of_mem fun hx hy hbefore => ?_
      obtain ⟨m, hm, hxm, hxd⟩ := exists_rest_of_mem_walk (inner _ hc) hx
      obtain ⟨n, hn, hyn, hyd⟩ := exists_rest_of_mem_walk (inner _ hc) hy
      rw [hxd, hyd] at hbefore
      rw [hxm, hyn, before_cons hm hn]
      exact .inr ⟨rfl, hbefore⟩
    · -- files of two folders in it
      have hdistinct : ((walkFolders enter path entries).map (·.1)).Nodup := by
        rw [walkFolders_eq]
        exact nodup_picked distinct _
      refine (pairwise_byName hdistinct).imp_of_mem ?_
      rintro ⟨a, found⟩ ⟨b, found'⟩ hfound hfound' hlt x hx y hy
      obtain ⟨deeper, hc, -, rfl⟩ := mem_walkFolders_iff.1 hfound
      obtain ⟨deeper', hc', -, rfl⟩ := mem_walkFolders_iff.1 hfound'
      obtain ⟨m, hm, hxm, -⟩ := exists_rest_of_mem_walk (inner _ hc) hx
      obtain ⟨n, hn, hyn, -⟩ := exists_rest_of_mem_walk (inner _ hc') hy
      rw [hxm, hyn, before_cons hm hn]
      exact .inl hlt
    · -- a file of the folder and one of a folder in it
      intro x hx y hy
      obtain ⟨⟨a, f⟩, -, rfl⟩ := List.mem_map.1 hx
      obtain ⟨⟨b, found⟩, hfound, hy⟩ := List.mem_flatMap.1 hy
      obtain ⟨deeper, hc, -, rfl⟩ := mem_walkFolders_iff.1 hfound
      obtain ⟨n, hn, hyn, -⟩ := exists_rest_of_mem_walk (inner _ hc) hy
      rw [hyn]
      simpa using before_of_single hn

/-- **Lists of files in order are the same if they have the same members.** -/
theorem eq_of_earlier {l l' : List (List String × File)} (h : l.Pairwise Earlier)
    (h' : l'.Pairwise Earlier) (hmem : ∀ x, x ∈ l ↔ x ∈ l') : l = l' :=
  List.Pairwise.eq_of_mem_iff h h' hmem

/-! ## Folders listed in another order -/

/-- **The same tree with what is in its folders listed in another order.** -/
inductive Relisted : FileTree → FileTree → Prop
  | here {entries entries' : List (String × FileTree)} (h : entries.Perm entries') :
      Relisted (folder entries) (folder entries')
  | inside {before after : List (String × FileTree)} {name : String} {t t' : FileTree}
      (h : Relisted t t') :
      Relisted (folder (before ++ (name, t) :: after)) (folder (before ++ (name, t') :: after))
  | trans {t t' t'' : FileTree} (h : Relisted t t') (h' : Relisted t' t'') : Relisted t t''

/-- A tree that is listed in another order is as proper. -/
theorem Relisted.proper (h : Relisted t t') (hproper : t.Proper) : t'.Proper := by
  induction h with
  | here hperm =>
    cases hproper with
    | folder distinct named inner =>
      exact .folder ((hperm.map _).nodup_iff.1 distinct) (fun e he => named e (hperm.mem_iff.2 he))
        fun e he => inner e (hperm.mem_iff.2 he)
  | @inside before after name t t' h ih =>
    cases hproper with
    | folder distinct named inner =>
      refine .folder (by simpa using distinct) (fun e he => ?_) (fun e he => ?_)
      all_goals rcases List.mem_append.1 he with he | he
      · exact named e (List.mem_append_left _ he)
      · rcases List.mem_cons.1 he with rfl | he
        · exact named (name, t) (by simp)
        · exact named e (by simp [he])
      · exact inner e (List.mem_append_left _ he)
      · rcases List.mem_cons.1 he with rfl | he
        · exact ih (inner (name, t) (by simp))
        · exact inner e (by simp [he])
  | trans h h' ih ih' => exact ih' (ih hproper)

/-- **A tree that is listed in another order has the same files.** -/
theorem Relisted.fileAt? (h : Relisted t t') (hproper : t.Proper) (names : List String) :
    t'.fileAt? names = t.fileAt? names := by
  induction h generalizing names with
  | @here entries entries' hperm =>
    have hproper' := (Relisted.here hperm).proper hproper
    cases names with
    | nil => rfl
    | cons name rest =>
      have hchild : (folder entries').child? name = (folder entries).child? name :=
        Option.ext fun c => by
          rw [child?_eq_some_iff hproper'.distinct_of_folder,
            child?_eq_some_iff hproper.distinct_of_folder, hperm.mem_iff]
      rw [fileAt?_cons, fileAt?_cons, hchild]
  | @inside before after name t t' h ih =>
    have hproper' := (@Relisted.inside before after name t t' h).proper hproper
    have distinct := hproper.distinct_of_folder
    have distinct' := hproper'.distinct_of_folder
    cases names with
    | nil => rfl
    | cons other rest =>
      rw [fileAt?_cons, fileAt?_cons]
      by_cases hother : other = name
      · have hold : (folder (before ++ (name, t) :: after)).child? other = some t :=
          (child?_eq_some_iff distinct).2 (by simp [hother])
        have hnew : (folder (before ++ (name, t') :: after)).child? other = some t' :=
          (child?_eq_some_iff distinct').2 (by simp [hother])
        rw [hold, hnew]
        exact ih (hproper.of_mem (e := (name, t)) (by simp)) rest
      · have hsame : (folder (before ++ (name, t') :: after)).child? other =
            (folder (before ++ (name, t) :: after)).child? other :=
          Option.ext fun c => by
            rw [child?_eq_some_iff distinct', child?_eq_some_iff distinct]
            simp [hother]
        rw [hsame]
  | trans h h' ih ih' => rw [ih' (h.proper hproper), ih hproper]

end CodeAudit.FileTree
