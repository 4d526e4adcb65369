import CodeAudit.Issue
import Mathlib.Data.Finset.Card

/-!
# Files with issues

The files that issues name are counted without repetitions, so their number depends only on which
files they are (`length_filesOf_le_of_mem`), and it is compared with another number of distinct
names by what each side has beyond the other (`length_le_iff_of_nodup`).
-/

namespace CodeAudit

variable {issues : List Issue} {names names' : List String}

/-- Without its repetitions a list has none. -/
theorem nodup_eraseDups (names : List String) : names.eraseDups.Nodup := by
  induction hlength : names.length using Nat.strongRecOn generalizing names with
  | ind n ih =>
    cases names with
    | nil => simp
    | cons name rest =>
      have hshorter : (rest.filter fun other => !other == name).length < n := by
        have := List.length_filter_le (fun other => !other == name) rest
        simp only [List.length_cons] at hlength
        omega
      rw [List.eraseDups_cons, List.nodup_cons]
      refine ⟨fun hname => ?_, ih _ hshorter _ rfl⟩
      rw [List.mem_eraseDups, List.mem_filter] at hname
      simp at hname

/-- Without its repetitions a list is as long as there are different things in it. -/
theorem length_eraseDups (names : List String) :
    names.eraseDups.length = names.toFinset.card := by
  rw [← List.toFinset_card_of_nodup (nodup_eraseDups names)]
  congr 1
  ext name
  rw [List.mem_toFinset, List.mem_toFinset, List.mem_eraseDups]

/-- A file is named if an issue names it. -/
theorem mem_filesOf {file : String} :
    file ∈ filesOf issues ↔ ∃ i ∈ issues, i.filePath = file := by
  rw [filesOf, List.mem_eraseDups, List.mem_map]

/-- No file is named twice. -/
theorem nodup_filesOf (issues : List Issue) : (filesOf issues).Nodup :=
  nodup_eraseDups _

/-- **Issues in some files name no more files than these.** -/
theorem length_filesOf_le_of_mem (h : ∀ i ∈ issues, i.filePath ∈ names) :
    (filesOf issues).length ≤ names.length := by
  refine (nodup_filesOf issues).length_le_of_subset fun file hfile => ?_
  obtain ⟨i, hi, rfl⟩ := mem_filesOf.1 hfile
  exact h i hi

/-- **Of two lists of distinct names one is no longer** exactly if no more of its names are missing
in the other than the other way round. -/
theorem length_le_iff_of_nodup (h : names.Nodup) (h' : names'.Nodup) :
    names.length ≤ names'.length ↔
      (names.filter fun n => !names'.contains n).length ≤
        (names'.filter fun n => !names.contains n).length := by
  have hmissing : ∀ {xs ys : List String}, xs.Nodup →
      (xs.filter fun n => !ys.contains n).length = (xs.toFinset \ ys.toFinset).card := by
    intro xs ys hxs
    rw [← List.toFinset_card_of_nodup (hxs.filter _)]
    congr 1
    ext n
    simp
  rw [hmissing h, hmissing h', ← List.toFinset_card_of_nodup h, ← List.toFinset_card_of_nodup h']
  exact Finset.card_sdiff_le_card_sdiff_iff.symm

end CodeAudit
