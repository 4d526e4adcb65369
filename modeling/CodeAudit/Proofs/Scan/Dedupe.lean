import CodeAudit.Proofs.Baseline.Known
import CodeAudit.Scan.Basic

/-!
# Choosing issues before and after they are put together

Putting issues together keeps one of those that cannot be told apart and sorts the rest. A choice
that does not tell such issues apart (`RespectsSame`) can be made before or after that, with the
same result (`dedupe_filter`). The sort is stable, and has to be: issues that differ only in their
messages are equal in its order, and keep the order in which they were found.
-/

namespace CodeAudit.Scan

/-! ## The order of issues -/

/-- Issues are ordered by file, line and column, and then by rule. -/
theorem inOrder_iff {a b : Issue} : inOrder a b = true ↔
    a.filePath < b.filePath ∨ a.filePath = b.filePath ∧
      (a.line.value < b.line.value ∨ a.line.value = b.line.value ∧
        (a.column.value < b.column.value ∨ a.column.value = b.column.value ∧
          ¬ b.ruleId < a.ruleId)) := by
  unfold inOrder
  by_cases hfile : a.filePath = b.filePath
  · by_cases hline : a.line.value = b.line.value
    · by_cases hcolumn : a.column.value = b.column.value
      · simp [hfile, hline, hcolumn]
      · simp [hfile, hline, hcolumn]
    · simp [hfile, hline]
  · simp [hfile]

theorem inOrder_trans (a b c : Issue) (hab : inOrder a b = true) (hbc : inOrder b c = true) :
    inOrder a c = true := by
  rw [inOrder_iff] at hab hbc ⊢
  rcases hab with h | ⟨h, hab⟩ <;> rcases hbc with h' | ⟨h', hbc⟩
  · exact .inl (String.lt_trans h h')
  · exact .inl (h' ▸ h)
  · exact .inl (h ▸ h')
  refine .inr ⟨h.trans h', ?_⟩
  rcases hab with h | ⟨h, hab⟩ <;> rcases hbc with h' | ⟨h', hbc⟩
  · exact .inl (by omega)
  · exact .inl (by omega)
  · exact .inl (by omega)
  refine .inr ⟨h.trans h', ?_⟩
  rcases hab with h | ⟨h, hab⟩ <;> rcases hbc with h' | ⟨h', hbc⟩
  · exact .inl (by omega)
  · exact .inl (by omega)
  · exact .inl (by omega)
  rw [String.not_lt] at hab hbc
  exact .inr ⟨h.trans h', String.not_lt.2 (String.le_trans hab hbc)⟩

theorem inOrder_total (a b : Issue) : (inOrder a b || inOrder b a) = true := by
  rw [Bool.or_eq_true, inOrder_iff, inOrder_iff]
  by_cases hfile : a.filePath = b.filePath
  · rcases Int.lt_trichotomy a.line.value b.line.value with h | h | h
    · exact .inl (.inr ⟨hfile, .inl h⟩)
    · rcases Int.lt_trichotomy a.column.value b.column.value with h' | h' | h'
      · exact .inl (.inr ⟨hfile, .inr ⟨h, .inl h'⟩⟩)
      · by_cases hrule : b.ruleId < a.ruleId
        · exact .inr (.inr ⟨hfile.symm, .inr ⟨h.symm, .inr ⟨h'.symm, String.lt_asymm hrule⟩⟩⟩)
        · exact .inl (.inr ⟨hfile, .inr ⟨h, .inr ⟨h', hrule⟩⟩⟩)
      · exact .inr (.inr ⟨hfile.symm, .inr ⟨h.symm, .inl h'⟩⟩)
    · exact .inr (.inr ⟨hfile.symm, .inl h⟩)
  · rcases String.le_total a.filePath b.filePath with h | h
    · refine .inl (.inl (String.not_le.1 fun h' => hfile (String.le_antisymm h h')))
    · refine .inr (.inl (String.not_le.1 fun h' => hfile (String.le_antisymm h' h)))

/-! ## Sorting -/

section Sorting

variable {α : Type} {le : α → α → Bool}

/-- A list is cut in one way only into things of one kind and things of the other. -/
theorem eq_of_append_eq {p : α → Bool} {a b c d : List α} (h : a ++ b = c ++ d)
    (ha : ∀ x ∈ a, p x = true) (hb : ∀ x ∈ b, p x = false) (hc : ∀ x ∈ c, p x = true)
    (hd : ∀ x ∈ d, p x = false) : a = c ∧ b = d := by
  have hfirst := congrArg (List.filter p) h
  rw [List.filter_append, List.filter_append, List.filter_eq_self.2 ha, List.filter_eq_self.2 hc,
    List.filter_eq_nil_iff.2 fun x hx => by simp [hb x hx],
    List.filter_eq_nil_iff.2 fun x hx => by simp [hd x hx], List.append_nil,
    List.append_nil] at hfirst
  subst hfirst
  exact ⟨rfl, List.append_cancel_left h⟩

/-- **A stable sort commutes with a choice.** -/
theorem mergeSort_filter (trans : ∀ a b c, le a b = true → le b c = true → le a c = true)
    (total : ∀ a b, (le a b || le b a) = true) (keep : α → Bool) (l : List α) :
    (l.filter keep).mergeSort le = (l.mergeSort le).filter keep := by
  induction l with
  | nil => simp
  | cons a l ih =>
    obtain ⟨l₁, l₂, hcons, hl, hbefore⟩ := List.mergeSort_cons trans total a l
    by_cases ha : keep a = true
    · -- both sorts put `a` before the first thing that it may stand before
      obtain ⟨m₁, m₂, hcons', hm, hbefore'⟩ := List.mergeSort_cons trans total a (l.filter keep)
      have hafter := List.pairwise_mergeSort trans total (a :: l)
      have hafter' := List.pairwise_mergeSort trans total (a :: l.filter keep)
      rw [hcons, List.pairwise_append, List.pairwise_cons] at hafter
      rw [hcons', List.pairwise_append, List.pairwise_cons] at hafter'
      have hsame : m₁ ++ m₂ = l₁.filter keep ++ l₂.filter keep := by
        rw [← hm, ih, hl, List.filter_append]
      obtain ⟨h₁, h₂⟩ := eq_of_append_eq (p := fun b => !le a b) hsame hbefore'
        (fun b hb => by simp [hafter'.2.1.1 b hb])
        (fun b hb => hbefore b (List.mem_filter.1 hb).1)
        (fun b hb => by simp [hafter.2.1.1 b (List.mem_filter.1 hb).1])
      rw [List.filter_cons_of_pos ha, hcons', hcons, h₁, h₂, List.filter_append,
        List.filter_cons_of_pos ha]
    · rw [List.filter_cons_of_neg ha, ih, hcons, hl, List.filter_append, List.filter_append,
        List.filter_cons_of_neg ha]

end Sorting

/-! ## Each issue once -/

/-- Of no issues there are none. -/
theorem dedupe_nil : dedupe [] = [] := by
  rw [dedupe, List.foldl_nil, List.mergeSort_nil]

/-- Adding an issue adds no other. -/
theorem mem_of_mem_addIssue {known : List Issue} {i j : Issue} (h : j ∈ addIssue known i) :
    j ∈ known ∨ j = i := by
  unfold addIssue at h
  split at h
  · obtain ⟨k, hk, rfl⟩ := List.mem_map.1 h
    split
    · exact .inr rfl
    · exact .inl hk
  · simpa using h

/-- Neither does adding issues one by one. -/
theorem mem_of_mem_foldl_addIssue {issues : List Issue} {i : Issue} :
    ∀ {known : List Issue}, i ∈ issues.foldl addIssue known → i ∈ known ∨ i ∈ issues := by
  induction issues with
  | nil => exact fun h => .inl h
  | cons j issues ih =>
    intro known h
    rcases ih h with h | h
    · rcases mem_of_mem_addIssue h with h | rfl
      · exact .inl h
      · exact .inr List.mem_cons_self
    · exact .inr (List.mem_cons_of_mem _ h)

/-- Issues that are put together are among those that were found. -/
theorem mem_of_mem_dedupe {issues : List Issue} {i : Issue} (h : i ∈ dedupe issues) :
    i ∈ issues :=
  (mem_of_mem_foldl_addIssue (List.mem_mergeSort.1 h)).resolve_left List.not_mem_nil

/-- Adding an issue loses none: the new one is there, and it replaces only what is the same. -/
theorem exists_same_of_addIssue {known : List Issue} {i j : Issue} (h : j ∈ known ∨ j = i) :
    ∃ k ∈ addIssue known i, k.fingerprint.same j.fingerprint = true := by
  unfold addIssue
  split
  next hany =>
    rcases h with hj | rfl
    · refine ⟨_, List.mem_map_of_mem hj, ?_⟩
      split
      next hsame => exact Fingerprint.same_symm hsame
      next => exact Fingerprint.same_refl _
    · obtain ⟨k, hk, hsame⟩ := List.any_eq_true.1 hany
      exact ⟨j, List.mem_map.2 ⟨k, hk, if_pos hsame⟩, Fingerprint.same_refl _⟩
  next => exact ⟨j, by simpa using h, Fingerprint.same_refl _⟩

/-- Neither does adding issues one by one. -/
theorem exists_same_of_foldl_addIssue {issues : List Issue} {j : Issue} :
    ∀ {known : List Issue},
      (∃ k ∈ known, k.fingerprint.same j.fingerprint = true) ∨ j ∈ issues →
      ∃ k ∈ issues.foldl addIssue known, k.fingerprint.same j.fingerprint = true := by
  induction issues with
  | nil => exact fun h => h.resolve_right List.not_mem_nil
  | cons i issues ih =>
    rintro known (⟨k, hk, hsame⟩ | hj)
    · obtain ⟨k', hk', hsame'⟩ := exists_same_of_addIssue (i := i) (.inl hk)
      exact ih (.inl ⟨k', hk', Fingerprint.same_trans hsame' hsame⟩)
    · rcases List.mem_cons.1 hj with rfl | hj
      · exact ih (.inl (exists_same_of_addIssue (.inr rfl)))
      · exact ih (.inr hj)

/-- **No issue is lost when issues are put together.** -/
theorem exists_same_of_mem {issues : List Issue} {j : Issue} (h : j ∈ issues) :
    ∃ k ∈ dedupe issues, k.fingerprint.same j.fingerprint = true := by
  obtain ⟨k, hk, hsame⟩ := @exists_same_of_foldl_addIssue issues j [] (.inr h)
  exact ⟨k, List.mem_mergeSort.2 hk, hsame⟩

/-- A choice that does not tell issues apart that are the same. -/
def RespectsSame (keep : Issue → Bool) : Prop :=
  ∀ {i j : Issue}, i.fingerprint.same j.fingerprint = true → keep i = keep j

/-- A choice by rule does not. -/
theorem respectsSame_rule (keep : String → Bool) : RespectsSame fun i => keep i.ruleId := by
  intro i j h
  exact congrArg keep (Fingerprint.same_iff.1 h).2.1

variable {keep : Issue → Bool}

/-- **A choice commutes with adding an issue.** -/
theorem filter_addIssue (hkeep : RespectsSame keep) (known : List Issue) (i : Issue) :
    (addIssue known i).filter keep =
      if keep i then addIssue (known.filter keep) i else known.filter keep := by
  have hreplace : ∀ k, keep (if k.fingerprint.same i.fingerprint then i else k) = keep k := by
    intro k
    split
    next h => exact (hkeep h).symm
    next => rfl
  unfold addIssue
  by_cases hi : keep i = true
  · have hany : (known.filter keep).any (·.fingerprint.same i.fingerprint) =
        known.any (·.fingerprint.same i.fingerprint) := by
      rw [List.any_filter]
      congr 1
      funext k
      cases hsame : k.fingerprint.same i.fingerprint with
      | false => simp
      | true => simp [hkeep hsame, hi]
    rw [if_pos hi, hany]
    split
    · rw [List.filter_map]
      congr 2
      funext k
      exact hreplace k
    · rw [List.filter_append, List.filter_cons_of_pos hi, List.filter_nil]
  · rw [if_neg hi]
    split
    · rw [List.filter_map]
      have hcomp : keep ∘ (fun k => if k.fingerprint.same i.fingerprint then i else k) = keep :=
        funext hreplace
      rw [hcomp]
      -- what is replaced is not kept
      refine (List.map_congr_left fun k hk => ?_).trans (List.map_id _)
      refine if_neg fun hsame => hi ?_
      rw [← hkeep hsame]
      exact (List.mem_filter.1 hk).2
    · rw [List.filter_append, List.filter_cons_of_neg hi, List.filter_nil, List.append_nil]

/-- A choice commutes with adding issues one by one. -/
theorem filter_foldl_addIssue (hkeep : RespectsSame keep) (known issues : List Issue) :
    (issues.foldl addIssue known).filter keep =
      (issues.filter keep).foldl addIssue (known.filter keep) := by
  induction issues generalizing known with
  | nil => rfl
  | cons i issues ih =>
    rw [List.foldl_cons, ih, filter_addIssue hkeep]
    by_cases hi : keep i = true
    · rw [if_pos hi, List.filter_cons_of_pos hi, List.foldl_cons]
    · rw [if_neg hi, List.filter_cons_of_neg hi]

/-- **Issues can be chosen before or after they are put together.** -/
theorem dedupe_filter (hkeep : RespectsSame keep) (issues : List Issue) :
    dedupe (issues.filter keep) = (dedupe issues).filter keep := by
  unfold dedupe
  rw [← mergeSort_filter inOrder_trans inOrder_total, filter_foldl_addIssue hkeep, List.filter_nil]

end CodeAudit.Scan
