import CodeAudit.Disk.Basic
import CodeAudit.Proofs.Disk.Change

/-!
# What writing leaves

A path that led to a place before a change leads to the same place afterwards (`follow_of_change`),
even through double dots, because they lead back through folders that stay. So a text that is
written into a file is at the place its path leads to, and every path to another file finds there
what it found before (`writeText_eq_ok`, `fileAt_of_change`). Two paths can be spelt differently
and lead to one place, and a path can lead somewhere only because the folders on it were just made;
so places are compared on the disk as the writing leaves it.
-/

namespace CodeAudit

/-- A computation of two stages succeeds if both do. -/
theorem bind_eq_ok {ε α β : Type} {first : Except ε α} {next : α → Except ε β} {b : β} :
    first >>= next = .ok b ↔ ∃ a, first = .ok a ∧ next a = .ok b := by
  cases first with
  | error e => simp [bind, Except.bind]
  | ok a => simp [bind, Except.bind]

/-- A list is gone through to its end exactly if no step fails. -/
theorem exists_mapM_eq_ok {ε α β : Type} {f : α → Except ε β} {l : List α} :
    (∃ bs, l.mapM f = .ok bs) ↔ ∀ a ∈ l, ∃ b, f a = .ok b := by
  induction l with
  | nil => simp [pure, Except.pure]
  | cons a l ih =>
    rw [List.forall_mem_cons, ← ih, List.mapM_cons]
    simp only [bind_eq_ok]
    constructor
    · rintro ⟨-, b, hb, bs, hbs, -⟩
      exact ⟨⟨b, hb⟩, bs, hbs⟩
    · rintro ⟨⟨b, hb⟩, bs, hbs⟩
      exact ⟨b :: bs, b, hb, bs, hbs, rfl⟩

/-- Nothing comes together exactly if every step gives nothing. -/
theorem exists_mapM_eq_ok_flatten_nil {ε α β : Type} {f : α → Except ε (List β)} {l : List α} :
    (∃ bs, l.mapM f = .ok bs ∧ bs.flatten = []) ↔ ∀ a ∈ l, f a = .ok [] := by
  induction l with
  | nil => simp [pure, Except.pure]
  | cons a l ih =>
    rw [List.forall_mem_cons, ← ih, List.mapM_cons]
    simp only [bind_eq_ok]
    constructor
    · rintro ⟨-, ⟨b, hb, bs, hbs, ⟨⟩⟩, hnil⟩
      rw [List.flatten_cons, List.append_eq_nil_iff] at hnil
      obtain ⟨rfl, hnil⟩ := hnil
      exact ⟨hb, bs, hbs, hnil⟩
    · rintro ⟨hb, bs, hbs, hnil⟩
      exact ⟨[] :: bs, ⟨[], hb, bs, hbs, rfl⟩, hnil⟩

/-- A value has no error to word. -/
theorem mapError_ok {ε ε' α : Type} (word : ε → ε') (a : α) :
    (Except.ok a : Except ε α).mapError word = .ok a :=
  rfl

/-- An error is worded differently. -/
theorem mapError_error {ε ε' α : Type} (word : ε → ε') (e : ε) :
    (Except.error e : Except ε α).mapError word = .error (word e) :=
  rfl

/-- To word an error differently changes no value. -/
theorem mapError_eq_ok {ε ε' α : Type} {word : ε → ε'} {x : Except ε α} {a : α} :
    x.mapError word = .ok a ↔ x = .ok a := by
  cases x with
  | error e => simp [mapError_error]
  | ok b => simp [mapError_ok]

namespace Disk

open FileTree

/-! ## Following paths -/

variable {root root' t t' c : FileTree} {above above' : List (FileTree × String)}
  {names place : List String} {name : String}

/-- **The way from the top to a tree**, the nearest folder first. -/
inductive Way (root : FileTree) : List (FileTree × String) → FileTree → Prop
  | top : Way root [] root
  | down {above : List (FileTree × String)} {t c : FileTree} {name : String}
      (h : Way root above t) (hc : t.child? name = some c) : Way root ((t, name) :: above) c

/-- A way leads to its names. -/
theorem Way.get? (h : Way root above t) : root.get? (above.map (·.2)).reverse = some t := by
  induction h with
  | top => rfl
  | down _ hc ih =>
    rw [List.map_cons, List.reverse_cons, get?_append, ih, Option.bind_some, FileTree.get?, hc]
    rfl

/-- One name further: back through the nearest folder, or down into what has the name. -/
inductive Turn (above : List (FileTree × String)) (t : FileTree) :
    String → List (FileTree × String) → FileTree → Prop
  | stay (h : above = []) : Turn above t ".." [] t
  | back {up : FileTree} {name : String} {rest : List (FileTree × String)}
      (h : above = (up, name) :: rest) : Turn above t ".." rest up
  | down {name : String} {c : FileTree} (hname : name ≠ "..") (hc : t.child? name = some c) :
      Turn above t name ((t, name) :: above) c

/-- A turn that is taken leads on. -/
theorem follow_of_turn (hfolder : t.isFolder = true) (h : Turn above t name above' t') :
    follow above t (name :: names) = follow above' t' names := by
  rw [follow.eq_def]
  simp only [hfolder]
  cases h with
  | stay hnil => subst hnil; rfl
  | back hcons => subst hcons; rfl
  | down hname hc =>
    rw [if_neg hname, hc]
    rfl

/-- **A name is followed where a turn can be taken.** -/
theorem follow_cons_eq_ok {r : List String × FileTree} :
    follow above t (name :: names) = .ok r ↔
      t.isFolder = true ∧ ∃ above' t', Turn above t name above' t' ∧
        follow above' t' names = .ok r := by
  constructor
  · intro h
    rw [follow.eq_def] at h
    simp only at h
    split at h
    · exact absurd h (by simp)
    next hfolder =>
    refine ⟨by simpa using hfolder, ?_⟩
    split at h
    next hname =>
      subst hname
      split at h
      · exact ⟨_, _, .stay rfl, h⟩
      · exact ⟨_, _, .back rfl, h⟩
    next hname =>
      split at h
      next c hc => exact ⟨_, _, .down hname hc, h⟩
      · exact absurd h (by simp)
  · rintro ⟨hfolder, above', t', hturn, h⟩
    rw [follow_of_turn hfolder hturn]
    exact h

/-- A turn keeps to the tree. -/
theorem Way.turn (hway : Way root above t) (h : Turn above t name above' t') :
    Way root above' t' := by
  cases h with
  | stay hnil =>
    subst hnil
    exact hway
  | back hcons =>
    subst hcons
    cases hway with
    | down hup _ => exact hup
  | down _ hc => exact .down hway hc

/-- **What is found by following names is at the place that was found.** -/
theorem get?_of_follow (hway : Way root above t) (h : follow above t names = .ok (place, c)) :
    root.get? place = some c := by
  induction names generalizing above t with
  | nil =>
    obtain ⟨rfl, rfl⟩ := Prod.mk.inj (Except.ok.inj h)
    exact hway.get?
  | cons name names ih =>
    obtain ⟨-, above', t', hturn, hrest⟩ := follow_cons_eq_ok.1 h
    exact ih (hway.turn hturn) hrest

variable {touched : List String → Prop}

/-- Ways of the same names lead to the same kind before and after a change. -/
theorem Way.isFolder_eq (hchange : Change touched root root') (hway : Way root above t)
    (hway' : Way root' above' t') (hsame : above'.map (·.2) = above.map (·.2)) :
    t'.isFolder = t.isFolder := by
  obtain ⟨u, hu, hfolder⟩ := hchange.keeps hway.get?
  rw [← hsame, hway'.get?] at hu
  obtain rfl := Option.some.inj hu
  exact hfolder

/-- **A turn that could be taken before a change can be taken after it.** -/
theorem Turn.of_change {next : List (FileTree × String)} (hchange : Change touched root root')
    (hway : Way root above t) (hway' : Way root' above' t')
    (hsame : above'.map (·.2) = above.map (·.2)) (h : Turn above t name next c) :
    ∃ next' c', Turn above' t' name next' c' ∧ next'.map (·.2) = next.map (·.2) := by
  cases h with
  | stay hnil =>
    subst hnil
    exact ⟨_, _, .stay (List.map_eq_nil_iff.1 hsame), rfl⟩
  | back hcons =>
    subst hcons
    cases hway' with
    | top => simp at hsame
    | down _ _ => exact ⟨_, _, .back rfl, (List.cons.inj hsame).2⟩
  | down hname hc =>
    obtain ⟨u, hu, -⟩ := hchange.keeps (hway.down hc).get?
    rw [List.map_cons, List.reverse_cons, ← hsame, get?_append, hway'.get?,
      Option.bind_some] at hu
    obtain ⟨v, hv, -⟩ := Option.bind_eq_some_iff.1 hu
    exact ⟨_, v, .down hname hv, by rw [List.map_cons, List.map_cons, hsame]⟩

/-- **What a path leads to stays where it is.** -/
theorem follow_of_change (hchange : Change touched root root') (hway : Way root above t)
    (hway' : Way root' above' t') (hsame : above'.map (·.2) = above.map (·.2))
    (h : follow above t names = .ok (place, c)) :
    ∃ c', follow above' t' names = .ok (place, c') := by
  induction names generalizing above above' t t' with
  | nil =>
    obtain ⟨rfl, rfl⟩ := Prod.mk.inj (Except.ok.inj h)
    exact ⟨t', by rw [follow, hsame]⟩
  | cons name names ih =>
    obtain ⟨hfolder, next, u, hturn, hrest⟩ := follow_cons_eq_ok.1 h
    obtain ⟨next', u', hturn', hnames⟩ := hturn.of_change hchange hway hway' hsame
    obtain ⟨c', hc'⟩ := ih (hway.turn hturn) (hway'.turn hturn') hnames hrest
    exact ⟨c', follow_cons_eq_ok.2
      ⟨(hway.isFolder_eq hchange hway' hsame).trans hfolder, next', u', hturn', hc'⟩⟩

/-! ## Changes of a disk -/

/-- A change of a disk at some places. -/
structure Change (touched : List String → Prop) (d d' : Disk) : Prop where
  current : d'.current = d.current
  tree : FileTree.Change touched d.tree d'.tree

/-- One change after another. -/
theorem Change.trans {d e d' : Disk} (h : d.Change touched e) (h' : e.Change touched d') :
    d.Change touched d' :=
  ⟨h'.current.trans h.current, h.tree.trans h'.tree⟩

/-- A change at fewer places is a change at more. -/
theorem Change.mono {more : List String → Prop} {d d' : Disk} (h : d.Change touched d')
    (hsub : ∀ names, touched names → more names) : d.Change more d' :=
  ⟨h.current, h.tree.mono hsub⟩

variable {d d' : Disk} {p : Path}

/-- A path leads somewhere if it is fit to be followed and its names do. -/
theorem locate_eq_ok {r : List String × FileTree} : d.locate p = .ok r ↔
    unfit? p = none ∧ follow [] d.tree (d.current.join p).parts = .ok r := by
  unfold locate
  cases unfit? p with
  | none => simp
  | some r => simp

/-- A path behind which nothing is was fit to be followed. -/
theorem follow_of_missing (h : d.locate p = .error .missing) :
    unfit? p = none ∧ follow [] d.tree (d.current.join p).parts = .error .missing := by
  unfold locate at h
  cases hfit : unfit? p with
  | none =>
    rw [hfit] at h
    exact ⟨rfl, h⟩
  | some r =>
    rw [hfit] at h
    obtain rfl := Except.error.inj h
    unfold unfit? at hfit
    dsimp only at hfit
    split at hfit
    · exact absurd hfit (by simp)
    · split at hfit
      · exact absurd hfit (by simp)
      · exact absurd hfit (by simp)

/-- What a path leads to is at its place. -/
theorem get?_of_locate (h : d.locate p = .ok (place, c)) : d.tree.get? place = some c :=
  get?_of_follow .top (locate_eq_ok.1 h).2

/-- The place that a path leads to. -/
def place? (d : Disk) (p : Path) : Option (List String) := (d.locate p).toOption.map (·.1)

/-- A path that leads somewhere has a place. -/
theorem place?_of_locate (h : d.locate p = .ok (place, c)) : d.place? p = some place := by
  rw [place?, h]
  rfl

/-- What a path leads to is found. -/
theorem exists_locate_of_get? (h : d.get? p = some c) : ∃ place, d.locate p = .ok (place, c) := by
  unfold Disk.get? at h
  cases hl : d.locate p with
  | error r => simp [hl, Except.toOption] at h
  | ok found =>
    obtain rfl : found.2 = c := by simpa [hl, Except.toOption] using h
    exact ⟨found.1, rfl⟩

/-- What exists is found. -/
theorem exists_locate (h : d.exists? p = true) : ∃ place c, d.locate p = .ok (place, c) := by
  unfold exists? at h
  cases hl : d.locate p with
  | error r => simp [hl, Except.toOption] at h
  | ok found => exact ⟨found.1, found.2, rfl⟩

/-- **A path leads to the same place after a change**, and to a thing of the same kind. -/
theorem locate_of_change (hchange : d.Change touched d') (h : d.locate p = .ok (place, c)) :
    ∃ c', d'.locate p = .ok (place, c') ∧ c'.isFolder = c.isFolder := by
  obtain ⟨hfit, hfollow⟩ := locate_eq_ok.1 h
  obtain ⟨c', hc'⟩ := follow_of_change hchange.tree .top .top rfl hfollow
  have hlocate : d'.locate p = .ok (place, c') := by
    rw [locate_eq_ok, hchange.current]
    exact ⟨hfit, hc'⟩
  obtain ⟨u, hu, hkind⟩ := hchange.tree.keeps (get?_of_locate h)
  rw [get?_of_locate hlocate] at hu
  obtain rfl := Option.some.inj hu
  exact ⟨c', hlocate, hkind⟩

/-- **A path finds what it found before**, unless its place was touched. -/
theorem fileAt_of_change (hchange : d.Change touched d') (h : d.locate p = .ok (place, c))
    (hplace : ¬ touched place) : d'.fileAt p = d.fileAt p := by
  obtain ⟨c', hc', hkind⟩ := locate_of_change hchange h
  have hfile : c'.file? = c.file? := by
    have hfiles := hchange.tree.files hplace
    rwa [FileTree.fileAt?, FileTree.fileAt?, get?_of_locate hc', get?_of_locate h] at hfiles
  unfold fileAt
  rw [hc', h]
  cases c with
  | file f =>
    cases c' with
    | file g => rw [Option.some.inj hfile]
    | folder _ => simp [isFolder] at hkind
  | folder _ =>
    cases c' with
    | file _ => simp [isFolder] at hkind
    | folder _ => rfl

/-! ## One name further -/

/-- A name that is in a folder leads from the folder to what has the name. -/
theorem follow_snoc (h : follow above t names = .ok (place, c)) (hfolder : c.isFolder = true)
    (hname : name ≠ "..") {u : FileTree} (hu : c.child? name = some u) :
    follow above t (names ++ [name]) = .ok (place ++ [name], u) := by
  induction names generalizing above t with
  | nil =>
    obtain ⟨rfl, rfl⟩ := Prod.mk.inj (Except.ok.inj h)
    refine follow_cons_eq_ok.2 ⟨hfolder, _, _, .down hname hu, ?_⟩
    rw [follow, List.map_cons, List.reverse_cons]
  | cons n names ih =>
    obtain ⟨hn, above', t', hturn, hrest⟩ := follow_cons_eq_ok.1 h
    exact follow_cons_eq_ok.2 ⟨hn, above', t', hturn, ih hrest⟩

/-- From a folder double dots always lead somewhere. -/
theorem exists_follow_dots (h : follow above t names = .ok (place, c))
    (hfolder : c.isFolder = true) : ∃ r, follow above t (names ++ [".."]) = .ok r := by
  induction names generalizing above t with
  | nil =>
    obtain ⟨rfl, rfl⟩ := Prod.mk.inj (Except.ok.inj h)
    cases above with
    | nil => exact ⟨_, follow_cons_eq_ok.2 ⟨hfolder, _, _, .stay rfl, rfl⟩⟩
    | cons a above => exact ⟨_, follow_cons_eq_ok.2 ⟨hfolder, _, _, .back rfl, rfl⟩⟩
  | cons n names ih =>
    obtain ⟨hn, above', t', hturn, hrest⟩ := follow_cons_eq_ok.1 h
    obtain ⟨r, hr⟩ := ih hrest
    exact ⟨r, follow_cons_eq_ok.2 ⟨hn, above', t', hturn, hr⟩⟩

/-- The names of a path are those of the path above it and its own. -/
theorem join_parts (base : Path) {p : Path} (h : p.parts ≠ []) :
    (base.join p).parts = (base.join p.parent).parts ++ [p.name] := by
  have hparts : p.parts = p.parts.dropLast ++ [p.name] := by
    rw [Path.name, List.getLast?_eq_some_getLast h, Option.getD_some]
    exact (List.dropLast_concat_getLast h).symm
  unfold Path.join
  split
  · rw [if_pos (by assumption)]
    exact hparts
  · rw [if_neg (by assumption)]
    simp only [Path.parent, List.append_assoc]
    rw [← hparts]

/-- **A path that leads nowhere, below a folder that is there**, has a name that is free in it. -/
theorem free_of_missing (h : d.locate p = .error .missing)
    (hparent : d.locate p.parent = .ok (place, c)) (hfolder : c.isFolder = true) :
    p.parts ≠ [] ∧ p.name ≠ ".." ∧ c.child? p.name = none := by
  have hparts : p.parts ≠ [] := by
    intro hnil
    have hself : p.parent = p := by
      rw [Path.parent, hnil, List.dropLast_nil, ← hnil]
    rw [hself, h] at hparent
    exact absurd hparent (by simp)
  have hfollow : follow [] d.tree ((d.current.join p.parent).parts ++ [p.name]) =
      .error .missing := by
    rw [← join_parts d.current hparts]
    exact (follow_of_missing h).2
  replace hparent := (locate_eq_ok.1 hparent).2
  have hdots : p.name ≠ ".." := by
    intro hname
    obtain ⟨s, hs⟩ := exists_follow_dots hparent hfolder
    rw [hname, hs] at hfollow
    exact absurd hfollow (by simp)
  refine ⟨hparts, hdots, ?_⟩
  cases hc : c.child? p.name with
  | none => rfl
  | some u =>
    rw [follow_snoc hparent hfolder hdots hc] at hfollow
    exact absurd hfollow (by simp)

/-! ## Writing -/

/-- **What is put behind a free name is where its path leads.** -/
theorem locate_put_free {new : FileTree} {entries : List (String × FileTree)}
    (hleaf : ∀ name, new.child? name = none) (hmissing : d.locate p = .error .missing)
    (hparent : d.locate p.parent = .ok (place, .folder entries)) :
    locate { d with tree := d.tree.put new (place ++ [p.name]) } p =
      .ok (place ++ [p.name], new) := by
  obtain ⟨hparts, hdots, hfree⟩ := free_of_missing hmissing hparent rfl
  have hroom : Room new d.tree (place ++ [p.name]) := room_of_free (get?_of_locate hparent) hfree
  have hchange : d.Change (· = place ++ [p.name])
      { d with tree := d.tree.put new (place ++ [p.name]) } :=
    ⟨rfl, change_put hleaf hroom⟩
  -- the folder is still there, and now has the name
  obtain ⟨c, hc, hkind⟩ := locate_of_change hchange hparent
  have hchild : c.child? p.name = some new := by
    have hput := get?_put hroom
    rw [get?_append, get?_of_locate hc, Option.bind_some, FileTree.get?] at hput
    obtain ⟨u, hu, hself⟩ := Option.bind_eq_some_iff.1 hput
    rw [hu, ← hself]
    rfl
  have hfollow := follow_snoc (locate_eq_ok.1 hc).2 hkind hdots hchild
  rw [← join_parts _ hparts] at hfollow
  exact locate_eq_ok.2 ⟨(follow_of_missing hmissing).1, hfollow⟩

/-- A new folder changes no file. -/
theorem change_of_makeFolder (h : d.makeFolder p = .ok d') : d.Change (fun _ => False) d' := by
  unfold makeFolder at h
  split at h
  · exact absurd h (by simp)
  next places entries hmissing hparent =>
    obtain rfl := Except.ok.inj h
    obtain ⟨-, -, hfree⟩ := free_of_missing hmissing hparent rfl
    exact ⟨rfl, change_put_folder (get?_of_locate hparent) hfree⟩
  · exact absurd h (by simp)
  · exact absurd h (by simp)

/-- Settling for a folder that is there changes no file. -/
theorem change_of_settle {made : Except Fault Disk}
    (hmade : ∀ {e}, made = .ok e → d.Change (fun _ => False) e)
    (h : makeFolders.settle d p made = .ok d') : d.Change (fun _ => False) d' := by
  unfold makeFolders.settle at h
  split at h
  next e =>
    obtain rfl := Except.ok.inj h
    exact hmade rfl
  next f =>
    split at h
    · obtain rfl := Except.ok.inj h
      exact ⟨rfl, .refl _ _⟩
    · exact absurd h (by simp)

/-- **Making folders changes no file.** -/
theorem change_of_makeFolders {depth : Nat} (h : d.makeFolders p depth = .ok d') :
    d.Change (fun _ => False) d' := by
  induction depth generalizing p d' with
  | zero => exact absurd h (by simp [makeFolders])
  | succ depth ih =>
    unfold makeFolders at h
    split at h
    next e he =>
      obtain rfl := Except.ok.inj h
      exact change_of_makeFolder he
    next =>
      obtain ⟨e, habove, hsettle⟩ := bind_eq_ok.1 h
      exact (ih habove).trans (change_of_settle change_of_makeFolder hsettle)
    next => exact change_of_settle change_of_makeFolder h

/-- What a file becomes when bytes are written into it: it stays as readable as it was, and a new
file is readable. -/
def rewritten (old : Option File) (bytes : List UInt8) : File :=
  ⟨bytes, (old.map (·.readable)).getD true⟩

/-- **Bytes are written at the place of their path**, and nowhere else. -/
theorem writeBytes_eq_ok {bytes : List UInt8} (h : d.writeBytes p bytes = .ok d') :
    ∃ place, d.Change (· = place) d' ∧
      d'.locate p = .ok (place, .file (rewritten (d.tree.fileAt? place) bytes)) := by
  unfold writeBytes at h
  split at h
  · exact absurd h (by simp)
  next _ place f hlocate =>
    obtain rfl := Except.ok.inj h
    have hget := get?_of_locate hlocate
    have hroom : Room (.file { f with bytes }) d.tree place := room_of_file hget
    have hchange : d.Change (· = place)
        { d with tree := d.tree.put (.file { f with bytes }) place } :=
      ⟨rfl, change_put (fun _ => rfl) hroom⟩
    obtain ⟨c, hc, -⟩ := locate_of_change hchange hlocate
    have hput := get?_of_locate hc
    rw [get?_put hroom] at hput
    obtain rfl := Option.some.inj hput
    refine ⟨place, hchange, hc.trans ?_⟩
    rw [FileTree.fileAt?, hget]
    rfl
  next places entries hmissing hparent =>
    obtain rfl := Except.ok.inj h
    obtain ⟨-, -, hfree⟩ := free_of_missing hmissing hparent rfl
    have hget := get?_of_locate hparent
    have hroom : Room (.file { bytes }) d.tree (places ++ [p.name]) := room_of_free hget hfree
    refine ⟨places ++ [p.name], ⟨rfl, change_put (fun _ => rfl) hroom⟩, ?_⟩
    refine (locate_put_free (fun _ => rfl) hmissing hparent).trans ?_
    simp [FileTree.fileAt?, get?_append, hget, FileTree.get?, hfree, rewritten]
  · exact absurd h (by simp)

/-- **A text is written at the place of its path**, and nowhere else. -/
theorem writeText_eq_ok {text : String} (h : d.writeText p text = .ok d') :
    ∃ place, d.Change (· = place) d' ∧ d'.locate p =
      .ok (place, .file (rewritten (d.tree.fileAt? place) (Text.Utf8.encode text.toList))) := by
  obtain ⟨e, hmake, hwrite⟩ := bind_eq_ok.1 h
  have hfolders := change_of_makeFolders hmake
  obtain ⟨place, hchange, hlocate⟩ := writeBytes_eq_ok hwrite
  refine ⟨place, (hfolders.mono fun _ h => h.elim).trans hchange, ?_⟩
  rw [hlocate, hfolders.tree.files id]

end Disk

end CodeAudit
