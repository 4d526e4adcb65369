import CodeAudit.Text.Lines
import Mathlib.Data.List.TakeWhile

/-!
# What trimming takes away

A text is the blanks at its start, what trimming leaves of it, and the blanks at its end
(`exists_trim`). So nothing changes if blanks are added around a text (`trim_surrounded`).
-/

namespace CodeAudit.Text

variable {a b text : List Char} {c : Char}

theorem trimStart_append_of_blank (h : ∀ c ∈ a, isBlank c = true) :
    trimStart (a ++ b) = trimStart b := by
  induction a with
  | nil => rfl
  | cons c a ih =>
    obtain ⟨hc, ha⟩ := List.forall_mem_cons.1 h
    rw [List.cons_append, trimStart, List.dropWhile_cons_of_pos hc]
    exact ih ha

theorem trimStart_eq_self (h : ∀ c, text.head? = some c → isBlank c = false) :
    trimStart text = text := by
  cases text with
  | nil => rfl
  | cons c text => rw [trimStart, List.dropWhile_cons_of_neg (by simp [h c rfl])]

theorem trimEnd_append_of_blank (h : ∀ c ∈ b, isBlank c = true) :
    trimEnd (a ++ b) = trimEnd a := by
  have hstart : trimStart (b.reverse ++ a.reverse) = trimStart a.reverse :=
    trimStart_append_of_blank fun c hc => h c (List.mem_reverse.1 hc)
  rw [trimEnd, dropEndWhile, List.reverse_append]
  exact congrArg List.reverse hstart

/-- What is left behind the blanks at the start has blanks at its end only. -/
theorem exists_trimStart (text : List Char) :
    ∃ right, trimStart text = trim text ++ right ∧ ∀ c ∈ right, isBlank c = true := by
  refine ⟨((trimStart text).reverse.takeWhile isBlank).reverse, ?_,
    fun c hc => List.mem_takeWhile_imp (List.mem_reverse.1 hc)⟩
  rw [trim, trimEnd, dropEndWhile, ← List.reverse_append, List.takeWhile_append_dropWhile,
    List.reverse_reverse]

/-- **A text is what trimming leaves of it, with blanks around.** -/
theorem exists_trim (text : List Char) : ∃ left right, text = left ++ trim text ++ right ∧
    (∀ c ∈ left, isBlank c = true) ∧ ∀ c ∈ right, isBlank c = true := by
  obtain ⟨right, heq, hright⟩ := exists_trimStart text
  have hparts : text.takeWhile isBlank ++ trimStart text = text := List.takeWhile_append_dropWhile
  refine ⟨text.takeWhile isBlank, right, ?_, fun c hc => List.mem_takeWhile_imp hc, hright⟩
  rw [List.append_assoc, ← heq, hparts]

theorem isBlank_of_head?_trim (h : (trim text).head? = some c) : isBlank c = false := by
  obtain ⟨rest, hrest⟩ : ∃ rest, trim text = c :: rest := List.head?_eq_some_iff.1 h
  obtain ⟨right, heq, -⟩ := exists_trimStart text
  have hhead := List.head?_dropWhile_not isBlank text
  rw [← trimStart, heq, hrest] at hhead
  simpa using hhead

/-- Nothing but blanks is trimmed to nothing. -/
theorem trim_eq_nil_iff : trim text = [] ↔ ∀ c ∈ text, isBlank c = true := by
  constructor
  · intro h
    obtain ⟨left, right, heq, hleft, hright⟩ := exists_trim text
    rw [h, List.append_nil] at heq
    rw [heq]
    exact List.forall_mem_append.2 ⟨hleft, hright⟩
  · intro h
    have hstart : trimStart (text ++ []) = trimStart [] := trimStart_append_of_blank h
    rw [List.append_nil] at hstart
    rw [trim, hstart]
    rfl

/-- **Blanks around a text do not matter.** -/
theorem trim_surrounded (ha : ∀ c ∈ a, isBlank c = true) (hb : ∀ c ∈ b, isBlank c = true) :
    trim (a ++ text ++ b) = trim text := by
  rw [trim, List.append_assoc, trimStart_append_of_blank ha, trim]
  by_cases hblank : ∀ c ∈ text, isBlank c = true
  · have hall : ∀ c ∈ text ++ b, isBlank c = true := List.forall_mem_append.2 ⟨hblank, hb⟩
    exact (trim_eq_nil_iff.2 hall).trans (trim_eq_nil_iff.2 hblank).symm
  · have hsome : text.dropWhile isBlank ≠ [] := by
      rwa [Ne, List.dropWhile_eq_nil_iff]
    rw [trimStart, List.dropWhile_append, if_neg (by simpa using hsome), trimEnd_append_of_blank hb]
    rfl

end CodeAudit.Text
