import CodeAudit.Proofs.Disk.Rewriting
import CodeAudit.Proofs.Scan.Gathering
import CodeAudit.Proofs.Scan.Separation

/-!
# Scans around the change of one file

Two scans of folders that differ in one file only have the same result exactly if the file counts
in the one as it does in the other (`resultOf_eq_iff_countsAs`): it is wanted in both or in neither,
and if it is wanted, its issues put together are the same. The issues of the other files are the
same anyway, and how issues of several files are mixed is decided by their order alone.
-/

namespace CodeAudit.Scan

variable {stack : Stack} {c : Choice} {p : Plan} {root : Path} {place : List String}
  {entries entries' : List (String × FileTree)} {coverage : Option Coverage} {r : ScanResult}

/-! ## Issues under some paths -/

/-- **Issues in order are decided by those under some paths and those under the others.** -/
theorem eq_of_filter_filePath (keep : String → Bool) {l l' : List Issue}
    (h : l.Pairwise fun a b => inOrder a b = true)
    (h' : l'.Pairwise fun a b => inOrder a b = true)
    (hkept : ∀ b, (l.filter fun i => keep i.filePath == b) =
      l'.filter fun i => keep i.filePath == b) : l = l' := by
  refine eq_of_sorted inOrder_total h h' fun i => ?_
  have hwithin : ∀ j, ties inOrder i j = true → (keep j.filePath == keep i.filePath) = true := by
    intro j hties
    rw [filePath_of_ties hties, beq_self_eq_true]
  rw [← filter_ties_of_keeps hwithin l, ← filter_ties_of_keeps hwithin l', hkept]

/-! ## The file at a place -/

/-- The file at a place of a folder, if it is wanted. -/
def WantedAt (c : Choice) (root : Path) (tree : FileTree) (place : List String) (f : File) :
    Prop :=
  tree.fileAt? place = some f ∧ Wanted c root place f

/-- **The file at a place counts in one scan as it does in another**: it is wanted in both or in
neither, the stack has room for the new one, and their issues put together are the same. -/
structure CountsAs (stack : Stack) (p : Plan) (root : Path) (place : List String)
    (tree tree' : FileTree) : Prop where
  wanted : (∃ f, WantedAt p.choice root tree place f) ↔ ∃ f, WantedAt p.choice root tree' place f
  shallow : ∀ f, WantedAt p.choice root tree' place f →
    ¬ (Target.at root (place, f)).TooDeep stack
  issues : ∀ f f', WantedAt p.choice root tree place f → WantedAt p.choice root tree' place f' →
    dedupe (targetIssues p (Target.at root (place, f))) =
      dedupe (targetIssues p (Target.at root (place, f')))

/-- The wanted file at a place is the one that is taken there. -/
theorem filter_taken_of_wanted {f : File} (hproper : (FileTree.folder entries).Proper)
    (h : WantedAt c root (.folder entries) place f) :
    ((taken c root (.folder entries)).filter fun x => x.1 == place) = [(place, f)] :=
  filter_taken_at hproper (((scanOrder_taken hproper).mem_iff place f).2 h)

/-- Where no file is wanted none is taken. -/
theorem filter_taken_of_not_wanted (hproper : (FileTree.folder entries).Proper)
    (h : ¬ ∃ f, WantedAt c root (.folder entries) place f) :
    ((taken c root (.folder entries)).filter fun x => x.1 == place) = [] := by
  refine List.filter_eq_nil_iff.2 ?_
  rintro ⟨names, f⟩ hmem hplace
  obtain rfl := beq_iff_eq.1 hplace
  exact h ⟨f, ((scanOrder_taken hproper).mem_iff _ f).1 hmem⟩

/-- What is taken at a place and what is taken elsewhere is all that is taken. -/
theorem length_taken (tree : FileTree) (place : List String) : (taken c root tree).length =
    ((taken c root tree).filter fun x => x.1 == place).length +
      ((taken c root tree).filter fun x => !(x.1 == place)).length :=
  List.length_eq_length_filter_add fun x : List String × File => x.1 == place

section Change

variable (hproper : (FileTree.folder entries).Proper) (hproper' : (FileTree.folder entries').Proper)
  (hnames : ∀ n ∈ place, FileTree.isName n = true)
  (hsame : ∀ names, names ≠ place →
    (FileTree.folder entries').fileAt? names = (FileTree.folder entries).fileAt? names)

include hproper hproper' hsame

/-- As many files are taken exactly if as many are taken at the place. -/
theorem length_taken_eq_iff : (taken c root (.folder entries)).length =
      (taken c root (.folder entries')).length ↔
    ((taken c root (.folder entries)).filter fun x => x.1 == place).length =
      ((taken c root (.folder entries')).filter fun x => x.1 == place).length := by
  rw [length_taken (.folder entries) place, length_taken (.folder entries') place,
    filter_taken_elsewhere hproper hproper' hsame]
  omega

include hnames

/-- The issues of all files are the same exactly if those of the file at the place are. -/
theorem dedupe_targets_eq_iff :
    dedupe ((targets c root (.folder entries)).flatMap (targetIssues p)) =
        dedupe ((targets c root (.folder entries')).flatMap (targetIssues p)) ↔
      dedupe ((((taken c root (.folder entries)).filter fun x => x.1 == place).map
          (Target.at root)).flatMap (targetIssues p)) =
        dedupe ((((taken c root (.folder entries')).filter fun x => x.1 == place).map
          (Target.at root)).flatMap (targetIssues p)) := by
  have hat := @filter_issues_at c root p entries place hproper hnames id
  have hat' := @filter_issues_at c root p entries' place hproper' hnames id
  simp only [id] at hat hat'
  rw [← hat, ← hat']
  constructor
  · intro h
    rw [h]
  · intro h
    refine eq_of_filter_filePath (· == Path.toString ⟨.relative, place⟩) (pairwise_dedupe _)
      (pairwise_dedupe _) fun b => ?_
    cases b with
    | true => simpa only [beq_true] using h
    | false =>
      have hother := @filter_issues_at c root p entries place hproper hnames (!·)
      have hother' := @filter_issues_at c root p entries' place hproper' hnames (!·)
      simp only [beq_false]
      rw [hother, hother', filter_taken_elsewhere hproper hproper' hsame]

omit hnames in
/-- The stack has room for all files exactly if it has room for the one at the place. -/
theorem shallow_targets_iff
    (hroom : ∀ t ∈ targets c root (.folder entries), ¬ t.TooDeep stack) :
    (∀ t ∈ targets c root (.folder entries'), ¬ t.TooDeep stack) ↔
      ∀ f, WantedAt c root (.folder entries') place f →
        ¬ (Target.at root (place, f)).TooDeep stack := by
  rw [targets_folder] at hroom
  simp only [targets_folder, List.forall_mem_map]
  constructor
  · intro h f hf
    exact h (place, f) (((scanOrder_taken hproper').mem_iff place f).2 hf)
  · rintro h ⟨names, f⟩ hmem
    by_cases hplace : names = place
    · subst hplace
      exact h f (((scanOrder_taken hproper').mem_iff names f).1 hmem)
    · -- a file elsewhere was there before
      have hother : (names, f) ∈
          (taken c root (.folder entries')).filter fun x => !(x.1 == place) :=
        List.mem_filter.2 ⟨hmem, by simpa using hplace⟩
      rw [← filter_taken_elsewhere hproper hproper' hsame] at hother
      exact hroom _ (List.mem_map_of_mem (List.mem_filter.1 hother).1)

omit hnames hsame in
/-- How a file counts is told by what is taken at its place. -/
theorem countsAs_iff : CountsAs stack p root place (.folder entries) (.folder entries') ↔
    (∀ f, WantedAt p.choice root (.folder entries') place f →
      ¬ (Target.at root (place, f)).TooDeep stack) ∧
    dedupe ((((taken p.choice root (.folder entries)).filter fun x => x.1 == place).map
        (Target.at root)).flatMap (targetIssues p)) =
      dedupe ((((taken p.choice root (.folder entries')).filter fun x => x.1 == place).map
        (Target.at root)).flatMap (targetIssues p)) ∧
    ((taken p.choice root (.folder entries)).filter fun x => x.1 == place).length =
      ((taken p.choice root (.folder entries')).filter fun x => x.1 == place).length := by
  by_cases hold : ∃ f, WantedAt p.choice root (.folder entries) place f
  · obtain ⟨f, hf⟩ := hold
    rw [filter_taken_of_wanted hproper hf]
    by_cases hnew : ∃ f, WantedAt p.choice root (.folder entries') place f
    · obtain ⟨f', hf'⟩ := hnew
      rw [filter_taken_of_wanted hproper' hf']
      simp only [List.map_singleton, List.flatMap_singleton, List.length_singleton, and_true]
      constructor
      · intro h
        exact ⟨h.shallow, h.issues f f' hf hf'⟩
      · rintro ⟨hshallow, hissues⟩
        refine ⟨iff_of_true ⟨f, hf⟩ ⟨f', hf'⟩, hshallow, fun g g' hg hg' => ?_⟩
        obtain rfl := Option.some.inj (hf.1.symm.trans hg.1)
        obtain rfl := Option.some.inj (hf'.1.symm.trans hg'.1)
        exact hissues
    · rw [filter_taken_of_not_wanted hproper' hnew]
      refine iff_of_false (fun h => hnew (h.wanted.1 ⟨f, hf⟩)) ?_
      rintro ⟨-, -, hlength⟩
      exact absurd hlength (by simp)
  · rw [filter_taken_of_not_wanted hproper hold]
    by_cases hnew : ∃ f, WantedAt p.choice root (.folder entries') place f
    · obtain ⟨f', hf'⟩ := hnew
      rw [filter_taken_of_wanted hproper' hf']
      refine iff_of_false (fun h => hold (h.wanted.2 ⟨f', hf'⟩)) ?_
      rintro ⟨-, -, hlength⟩
      exact absurd hlength (by simp)
    · rw [filter_taken_of_not_wanted hproper' hnew]
      refine iff_of_true ⟨iff_of_false hold hnew, ?_, ?_⟩ ⟨?_, rfl, rfl⟩
      · exact fun f hf => absurd ⟨f, hf⟩ hnew
      · exact fun f _ hf _ => absurd ⟨f, hf⟩ hold
      · exact fun f hf => absurd ⟨f, hf⟩ hnew

/-- **Two scans of folders that differ in one file have one result** exactly if the file counts in
the one as it does in the other, and the folders of the other are not too deep. -/
theorem resultOf_eq_iff_countsAs {depth depth' : Nat}
    (hr : resultOf stack depth p (targets p.choice root (.folder entries)) coverage = .ok r) :
    resultOf stack depth' p (targets p.choice root (.folder entries')) coverage = .ok r ↔
      depth' ≤ stack.folders ∧
        CountsAs stack p root place (.folder entries) (.folder entries') := by
  obtain ⟨⟨-, hroom⟩, rfl⟩ := resultOf_eq_ok_iff.1 hr
  have hlength : ∀ entries, (targets p.choice root (.folder entries)).length =
      (taken p.choice root (.folder entries)).length := by
    intro entries
    rw [targets_folder, List.length_map]
  rw [resultOf_eq_ok_iff, shallow_targets_iff hproper hproper' hsame hroom,
    countsAs_iff hproper hproper', and_assoc]
  simp only [ScanResult.mk.injEq, and_true, Int.ofNat_inj, hlength,
    dedupe_targets_eq_iff hproper hproper' hnames hsame,
    length_taken_eq_iff hproper hproper' hsame]

end Change

/-! ## Scans around writing -/

variable {disk after : Disk} {machine : External.Machine} {path : Path} {text : String}

/-- A place where no file is wanted before or after counts alike. -/
theorem countsAs_of_not_wanted {names : List String} {tree tree' : FileTree}
    (hold : ∀ f, ¬ WantedAt p.choice root tree names f)
    (hnew : ∀ f, ¬ WantedAt p.choice root tree' names f) :
    CountsAs stack p root names tree tree' where
  wanted := iff_of_false (fun ⟨f, hf⟩ => hold f hf) fun ⟨f, hf⟩ => hnew f hf
  shallow f hf := absurd hf (hnew f)
  issues f _ hf _ := absurd hf (hold f)

/-- No file is at the top of a folder, so there every two folders count alike. -/
theorem countsAs_top : CountsAs stack p root [] (.folder entries) (.folder entries') :=
  countsAs_of_not_wanted (fun _ h => FileTree.ne_nil_of_fileAt? h.1 rfl) fun _ h =>
    FileTree.ne_nil_of_fileAt? h.1 rfl

/-- **A file that was written goes unnoticed by the next scan**: the folders that were made for it
are not too deep, and it lies outside the folder, or counts in it as what was at its place before.
-/
structure Unnoticed (stack : Stack) (p : Plan) (disk after : Disk) (path : Path) : Prop where
  folders : ∀ tree', after.get? (disk.absolute p.root) = some tree' →
    p.choice.depth (disk.absolute p.root) tree' ≤ stack.folders
  file : ∀ top names tree tree', disk.locate (disk.absolute p.root) = .ok (top, tree) →
    after.get? (disk.absolute p.root) = some tree' → after.place? path = some (top ++ names) →
    CountsAs stack p (disk.absolute p.root) names tree tree'

/-- **The scan after a text was written** has the result of the scan before exactly if the text goes
unnoticed. -/
theorem result_after_iff (hproper : disk.tree.Proper) (hplain : path.Plain)
    (hengine : Engine.ofName? p.engine = some .builtIn)
    (hdir : disk.get? (disk.absolute p.root) = some (.folder entries))
    (hwrite : disk.writeText path text = .ok after)
    (hscan : (runWithin disk machine p coverage).result = .ok r) :
    (runWithin after machine p coverage).result = .ok r ↔
      Unnoticed machine.stack p disk after path := by
  obtain ⟨top, place, entries', hl, hl', hplace, htree, htree', ⟨f, hf⟩, hfiles⟩ :=
    Disk.exists_folder_after hproper hplain hdir hwrite
  have hroot : after.absolute p.root = disk.absolute p.root := by
    obtain ⟨_, hchange, _⟩ := Disk.writeText_eq_ok hwrite
    unfold Disk.absolute
    rw [hchange.current]
  have hdir' : after.get? (disk.absolute p.root) = some (.folder entries') := by
    rw [Disk.get?, hl']
    rfl
  have hfolders : p.choice.depth (disk.absolute p.root) (.folder entries') ≤ machine.stack.folders ↔
      ∀ tree', after.get? (disk.absolute p.root) = some tree' →
        p.choice.depth (disk.absolute p.root) tree' ≤ machine.stack.folders := by
    simp only [hdir', Option.some.injEq, forall_eq']
  rw [result_runWithin hdir hengine] at hscan
  rw [result_runWithin (hroot.symm ▸ hdir') hengine, hroot]
  by_cases hbelow : ∃ names, place = top ++ names
  · obtain ⟨names, rfl⟩ := hbelow
    have hreport : (FileTree.folder entries').fileAt? names = some f := by
      rw [← FileTree.fileAt?_append (Disk.get?_of_locate hl'), hf]
    rw [resultOf_eq_iff_countsAs htree htree' (FileTree.isName_of_fileAt? htree' hreport)
      (fun other hne => hfiles other fun h => hne (List.append_cancel_left h)) hscan]
    constructor
    · rintro ⟨hdepth, h⟩
      refine ⟨hfolders.1 hdepth, fun top' names' tree tree' hl'' hget hplace' => ?_⟩
      obtain ⟨rfl, rfl⟩ := Prod.mk.inj (Except.ok.inj (hl.symm.trans hl''))
      obtain rfl := Option.some.inj (hdir'.symm.trans hget)
      obtain rfl := List.append_cancel_left (Option.some.inj (hplace.symm.trans hplace'))
      exact h
    · intro h
      exact ⟨hfolders.2 h.folders, h.file top names _ _ hl hdir' hplace⟩
  · have hsame : ∀ names, names ≠ [] →
        (FileTree.folder entries').fileAt? names = (FileTree.folder entries).fileAt? names :=
      fun names _ => hfiles names fun h => hbelow ⟨names, h.symm⟩
    rw [resultOf_eq_iff_countsAs htree htree' (by simp) hsame hscan]
    constructor
    · rintro ⟨hdepth, -⟩
      refine ⟨hfolders.1 hdepth, fun top' names tree tree' hl'' hget hplace' => ?_⟩
      obtain ⟨rfl, -⟩ := Prod.mk.inj (Except.ok.inj (hl.symm.trans hl''))
      exact absurd ⟨names, Option.some.inj (hplace.symm.trans hplace')⟩ hbelow
    · intro h
      exact ⟨hfolders.2 h.folders, countsAs_top⟩

end CodeAudit.Scan
