import CodeAudit.Path
import CodeAudit.Proofs.Disk.Walk

/-!
# Places as texts

A place below a folder is shown as its names with slashes between them. What has a name on a disk
can be told from that text (`Path.parts_ofString_toString`): no name is empty or a single dot, which
vanish when a path is read, and none has a slash in it.
-/

namespace CodeAudit

namespace Text

variable {sep : Char} {piece : List Char}

/-- A text without the separator is one piece. -/
theorem pieces_of_not_mem (h : sep ∉ piece) : pieces sep piece = [piece] := by
  induction piece with
  | nil => rfl
  | cons c piece ih =>
    rw [List.mem_cons, not_or] at h
    rw [pieces, if_neg (Ne.symm h.1), ih h.2]

/-- The first separator ends the first piece. -/
theorem pieces_append (h : sep ∉ piece) (rest : List Char) :
    pieces sep (piece ++ sep :: rest) = piece :: pieces sep rest := by
  induction piece with
  | nil => rw [List.nil_append, pieces, if_pos rfl]
  | cons c piece ih =>
    rw [List.mem_cons, not_or] at h
    rw [List.cons_append, pieces, if_neg (Ne.symm h.1), ih h.2]

/-- Texts without the separator are the pieces of what they are put together to. -/
theorem pieces_intercalate_of_not_mem {texts : List (List Char)} (htexts : texts ≠ [])
    (h : ∀ piece ∈ texts, sep ∉ piece) : pieces sep ([sep].intercalate texts) = texts := by
  induction texts with
  | nil => exact absurd rfl htexts
  | cons first rest ih =>
    obtain ⟨hfirst, hrest⟩ := List.forall_mem_cons.1 h
    cases rest with
    | nil => rw [List.intercalate_singleton, pieces_of_not_mem hfirst]
    | cons next rest =>
      rw [List.intercalate_cons_cons, List.append_assoc, List.singleton_append,
        pieces_append hfirst, ih (List.cons_ne_nil _ _) hrest]

end Text

open FileTree (isName)

variable {name : String} {names names' : List String}

/-- What is not among the characters and texts of a name. -/
theorem FileTree.isName_iff : isName name = true ↔
    name ≠ "" ∧ name ≠ "." ∧ name ≠ ".." ∧ '/' ∉ name.toList := by
  simp [isName, and_assoc]

namespace Path

/-- The pieces of names that are put together are the names. -/
theorem pieces_intercalate (hnames : names ≠ []) (h : ∀ n ∈ names, '/' ∉ n.toList) :
    Text.pieces '/' ("/".intercalate names).toList = names.map String.toList := by
  rw [String.toList_intercalate]
  refine Text.pieces_intercalate_of_not_mem (mt List.map_eq_nil_iff.1 hnames) fun piece hpiece => ?_
  obtain ⟨n, hn, rfl⟩ := List.mem_map.1 hpiece
  exact h n hn

/-- The names in the text of names are the names. -/
theorem names_intercalate (h : ∀ n ∈ names, n ≠ "" ∧ n ≠ "." ∧ '/' ∉ n.toList) :
    Path.names ("/".intercalate names).toList = names := by
  by_cases hnames : names = []
  · subst hnames
    rfl
  · have hkept : ∀ piece ∈ names.map String.toList, decide (piece ≠ [] ∧ piece ≠ ['.']) = true := by
      intro piece hpiece
      obtain ⟨n, hn, rfl⟩ := List.mem_map.1 hpiece
      obtain ⟨hempty, hdot, -⟩ := h n hn
      refine decide_eq_true ⟨fun heq => hempty (String.toList_inj.1 heq), fun heq => ?_⟩
      exact hdot (String.toList_inj.1 heq)
    rw [Path.names, pieces_intercalate hnames fun n hn => (h n hn).2.2, List.filter_eq_self.2 hkept,
      List.map_map]
    exact (List.map_congr_left fun n _ => String.ofList_toList).trans (List.map_id _)

/-- Names are shown with slashes between them. -/
theorem toString_relative (hnames : names ≠ []) :
    toString ⟨.relative, names⟩ = "/".intercalate names := by
  rw [toString, if_neg fun hnil => hnames hnil.2]
  exact String.empty_append

/-- **The text of a place tells its names.** -/
theorem parts_ofString_toString (h : ∀ n ∈ names, isName n = true) :
    (ofString (toString ⟨.relative, names⟩)).parts = names := by
  by_cases hnames : names = []
  · subst hnames
    decide
  · rw [toString_relative hnames]
    refine names_intercalate fun n hn => ?_
    obtain ⟨hempty, hdot, -, hslash⟩ := FileTree.isName_iff.1 (h n hn)
    exact ⟨hempty, hdot, hslash⟩

/-- Two places with the same text are the same. -/
theorem toString_inj (h : ∀ n ∈ names, isName n = true) (h' : ∀ n ∈ names', isName n = true) :
    toString ⟨.relative, names⟩ = toString ⟨.relative, names'⟩ ↔ names = names' := by
  refine ⟨fun heq => ?_, fun heq => heq ▸ rfl⟩
  rw [← parts_ofString_toString h, heq, parts_ofString_toString h']

end Path

/-- The place of a file is made of names. -/
theorem FileTree.isName_of_fileAt? {t : FileTree} (hproper : t.Proper) {f : File}
    (hfile : t.fileAt? names = some f) : ∀ n ∈ names, isName n = true := by
  induction hproper generalizing names with
  | file g =>
    obtain ⟨rfl, -⟩ := FileTree.fileAt?_file.1 hfile
    exact fun n hn => absurd hn List.not_mem_nil
  | folder distinct named inner ih =>
    obtain ⟨name, rest, rfl⟩ :=
      List.exists_cons_of_ne_nil (FileTree.ne_nil_of_fileAt? hfile)
    obtain ⟨c, hc, hrest⟩ := (FileTree.fileAt?_folder_cons distinct).1 hfile
    rw [List.forall_mem_cons]
    exact ⟨named _ hc, ih _ hc hrest⟩

end CodeAudit
