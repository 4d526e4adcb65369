import CodeAudit.Proofs.Scan.Dedupe
import Mathlib.Data.List.Pairwise

/-!
# Issues put together in parts

Issues of several sources can be put together at once, or first those of each source and then the
results (`dedupe_append`). Two things could tell these apart. An issue that is found again replaces
the one that is known at its place, so it matters in which order issues come; but a later one
wins either way (`foldl_addIssue_gathered`). And the parts are sorted, which moves the places; but
the sort is stable, and a sorted list is decided by the order of those that are equal in it
(`eq_of_sorted`).
-/

namespace CodeAudit.Scan

/-! ## Sorted lists -/

section Sorting

variable {α : Type} {le : α → α → Bool}

/-- Whether two things are equal in an order. -/
def ties (le : α → α → Bool) (a b : α) : Bool := le a b && le b a

/-- Everything is equal to itself. -/
theorem ties_self (total : ∀ a b, (le a b || le b a) = true) (a : α) : ties le a a = true := by
  have hle : le a a = true := by simpa using total a a
  rw [ties, hle, Bool.and_self]

/-- Of what is kept the things of a kind are all of that kind, if the whole kind is kept. -/
theorem filter_ties_of_keeps {a : α} {keep : α → Bool}
    (h : ∀ b, ties le a b = true → keep b = true) (l : List α) :
    (l.filter keep).filter (ties le a) = l.filter (ties le a) := by
  rw [List.filter_filter]
  refine List.filter_congr fun b _ => ?_
  cases hties : ties le a b with
  | false => rw [Bool.false_and]
  | true => rw [h b hties, Bool.true_and]

/-- Lists that have the same things of each kind have the same things. -/
theorem mem_iff_of_ties (total : ∀ a b, (le a b || le b a) = true) {l l' : List α}
    (hties : ∀ a, l.filter (ties le a) = l'.filter (ties le a)) (a : α) : a ∈ l ↔ a ∈ l' := by
  have hfilter : a ∈ l.filter (ties le a) ↔ a ∈ l'.filter (ties le a) := by rw [hties a]
  simpa only [List.mem_filter, ties_self total a, and_true] using hfilter

/-- **A sorted list is decided by the order of the things that are equal in it.** -/
theorem eq_of_sorted (total : ∀ a b, (le a b || le b a) = true) {l l' : List α}
    (h : l.Pairwise fun a b => le a b = true) (h' : l'.Pairwise fun a b => le a b = true)
    (hties : ∀ a, l.filter (ties le a) = l'.filter (ties le a)) : l = l' := by
  have hrefl : ∀ a, le a a = true := fun a => by simpa using total a a
  have hmem := mem_iff_of_ties total hties
  induction l generalizing l' with
  | nil =>
    cases l' with
    | nil => rfl
    | cons b l' => exact absurd ((hmem b).2 List.mem_cons_self) List.not_mem_nil
  | cons a l ih =>
    cases l' with
    | nil => exact absurd ((hmem a).1 List.mem_cons_self) List.not_mem_nil
    | cons b l' =>
      rw [List.pairwise_cons] at h h'
      have hle : le a b = true := by
        rcases List.mem_cons.1 ((hmem b).2 List.mem_cons_self) with rfl | hb
        · exact hrefl b
        · exact h.1 b hb
      have hge : le b a = true := by
        rcases List.mem_cons.1 ((hmem a).1 List.mem_cons_self) with rfl | ha
        · exact hrefl a
        · exact h'.1 a ha
      -- the heads are equal in the order, and so each is the first of the same kind
      have hfirst := hties a
      rw [List.filter_cons_of_pos (ties_self total a),
        List.filter_cons_of_pos (by rw [ties, hle, hge, Bool.and_self])] at hfirst
      obtain rfl := (List.cons.inj hfirst).1
      have hrest : ∀ c, l.filter (ties le c) = l'.filter (ties le c) := by
        intro c
        have hc := hties c
        rw [List.filter_cons, List.filter_cons] at hc
        split at hc
        · exact (List.cons.inj hc).2
        · exact hc
      rw [ih h.2 h'.2 hrest (mem_iff_of_ties total hrest)]

end Sorting

/-! ## Issues that are known already -/

/-- Issues, each once, in the order in which they were found. -/
def gathered (issues : List Issue) : List Issue := issues.foldl addIssue []

/-- What comes to stand where an issue is when another is added. -/
def replacing (i k : Issue) : Issue := if k.fingerprint.same i.fingerprint then i else k

variable {known more : List Issue} {i j k : Issue}

/-- What comes to stand there is the same. -/
theorem same_replacing (i k j : Issue) :
    (replacing i k).fingerprint.same j.fingerprint = k.fingerprint.same j.fingerprint := by
  unfold replacing
  split
  next h =>
    rw [Bool.eq_iff_iff]
    exact ⟨Fingerprint.same_trans h, Fingerprint.same_trans (Fingerprint.same_symm h)⟩
  next => rfl

/-- And the other way round. -/
theorem same_replacing_right (i k j : Issue) :
    j.fingerprint.same (replacing i k).fingerprint = j.fingerprint.same k.fingerprint := by
  have hcomm : ∀ a b : Fingerprint, a.same b = b.same a := fun a b =>
    Bool.eq_iff_iff.2 ⟨Fingerprint.same_symm, Fingerprint.same_symm⟩
  rw [hcomm, same_replacing, hcomm]

/-- An issue that is known takes the place of the one that is the same. -/
theorem addIssue_of_any (h : known.any (·.fingerprint.same i.fingerprint) = true) :
    addIssue known i = known.map (replacing i) :=
  if_pos h

/-- An issue that is not known is added at the end. -/
theorem addIssue_of_not_any (h : ¬ known.any (·.fingerprint.same i.fingerprint) = true) :
    addIssue known i = known ++ [i] :=
  if_neg h

/-- Replaced issues know the same ones. -/
theorem any_map_replacing (known : List Issue) (i j : Issue) :
    (known.map (replacing i)).any (·.fingerprint.same j.fingerprint) =
      known.any (·.fingerprint.same j.fingerprint) := by
  rw [List.any_map]
  congr 1
  funext k
  exact same_replacing i k j

/-- **To replace an issue before or after another is added comes to the same.** -/
theorem addIssue_map_replacing (known : List Issue) (i j : Issue) :
    addIssue (known.map (replacing i)) (replacing i j) =
      (addIssue known j).map (replacing i) := by
  have hany : (known.map (replacing i)).any (·.fingerprint.same (replacing i j).fingerprint) =
      known.any (·.fingerprint.same j.fingerprint) := by
    simp only [same_replacing_right, any_map_replacing]
  by_cases h : known.any (·.fingerprint.same j.fingerprint) = true
  · rw [addIssue_of_any (hany.trans h), addIssue_of_any h, List.map_map, List.map_map]
    refine List.map_congr_left fun k _ => ?_
    by_cases hsame : k.fingerprint.same j.fingerprint = true
    · have hleft : replacing (replacing i j) (replacing i k) = replacing i j :=
        if_pos (by rw [same_replacing_right, same_replacing, hsame])
      have hright : replacing j k = j := if_pos hsame
      rw [Function.comp_apply, Function.comp_apply, hleft, hright]
    · have hleft : replacing (replacing i j) (replacing i k) = replacing i k :=
        if_neg (by rwa [same_replacing_right, same_replacing])
      have hright : replacing j k = k := if_neg hsame
      rw [Function.comp_apply, Function.comp_apply, hleft, hright]
  · rw [addIssue_of_not_any (hany ▸ h), addIssue_of_not_any h, List.map_append]
    rfl

/-- And so it does for issues that are added one by one. -/
theorem foldl_addIssue_map_replacing (known more : List Issue) (i : Issue) :
    (more.map (replacing i)).foldl addIssue (known.map (replacing i)) =
      (more.foldl addIssue known).map (replacing i) := by
  induction more generalizing known with
  | nil => rfl
  | cons j more ih =>
    rw [List.map_cons, List.foldl_cons, addIssue_map_replacing, ih, List.foldl_cons]

/-- An issue that is replaced anyway need not be replaced before. -/
theorem addIssue_replaced (known : List Issue) (h : j.fingerprint.same i.fingerprint = true) :
    addIssue (known.map (replacing i)) j = addIssue known j := by
  by_cases hany : known.any (·.fingerprint.same j.fingerprint) = true
  · rw [addIssue_of_any hany, addIssue_of_any ((any_map_replacing known i j).trans hany),
      List.map_map]
    refine List.map_congr_left fun k _ => ?_
    have hsame := same_replacing i k j
    unfold replacing at hsame ⊢
    rw [Function.comp_apply, hsame]
    split
    next => rfl
    next hj =>
      exact if_neg fun hi => hj (Fingerprint.same_trans hi (Fingerprint.same_symm h))
  · have hnone : known.map (replacing i) = known := by
      refine (List.map_congr_left fun k hk => ?_).trans (List.map_id _)
      refine if_neg fun hi => hany ?_
      exact List.any_eq_true.2 ⟨k, hk, Fingerprint.same_trans hi (Fingerprint.same_symm h)⟩
    rw [hnone]

/-- The same for issues among which is one that replaces it. -/
theorem foldl_addIssue_replaced (h : more.any (·.fingerprint.same i.fingerprint) = true) :
    more.foldl addIssue (known.map (replacing i)) = more.foldl addIssue known := by
  induction more generalizing known with
  | nil => exact absurd h (by simp)
  | cons j more ih =>
    rw [List.foldl_cons, List.foldl_cons]
    by_cases hj : j.fingerprint.same i.fingerprint = true
    · rw [addIssue_replaced known hj]
    · have hself : replacing i j = j := if_neg hj
      have hadd := addIssue_map_replacing known i j
      rw [hself] at hadd
      rw [hadd, ih (by simpa [hj] using h)]

/-! ## Issues gathered in parts -/

/-- **To add gathered issues and one more is to add the issue after them.** -/
theorem foldl_addIssue_addIssue (known more : List Issue) (i : Issue) :
    (addIssue more i).foldl addIssue known = addIssue (more.foldl addIssue known) i := by
  by_cases h : more.any (·.fingerprint.same i.fingerprint) = true
  · obtain ⟨j, hj, hsame⟩ := List.any_eq_true.1 h
    obtain ⟨k, hk, hsame'⟩ := @exists_same_of_foldl_addIssue more j known (.inr hj)
    have hlater : (more.foldl addIssue known).any (·.fingerprint.same i.fingerprint) = true :=
      List.any_eq_true.2 ⟨k, hk, Fingerprint.same_trans hsame' hsame⟩
    rw [addIssue_of_any h, addIssue_of_any hlater, ← foldl_addIssue_map_replacing,
      foldl_addIssue_replaced ((any_map_replacing more i i).trans h)]
  · rw [addIssue_of_not_any h, List.foldl_append]
    rfl

/-- **Issues can be gathered before they are added to others.** -/
theorem foldl_addIssue_gathered (known issues : List Issue) :
    (gathered issues).foldl addIssue known = issues.foldl addIssue known := by
  have hgeneral : ∀ more, (issues.foldl addIssue more).foldl addIssue known =
      issues.foldl addIssue (more.foldl addIssue known) := by
    induction issues with
    | nil => exact fun _ => rfl
    | cons i issues ih =>
      intro more
      rw [List.foldl_cons, ih, foldl_addIssue_addIssue, List.foldl_cons]
  exact hgeneral []

/-- Issues can be gathered in parts. -/
theorem gathered_append (xs ys : List Issue) :
    gathered (gathered xs ++ gathered ys) = gathered (xs ++ ys) := by
  unfold gathered
  rw [List.foldl_append, List.foldl_append]
  have hxs := foldl_addIssue_gathered [] xs
  have hys := foldl_addIssue_gathered (xs.foldl addIssue []) ys
  unfold gathered at hxs hys
  rw [hxs, hys]

/-- Issues that are put together are in order. -/
theorem pairwise_dedupe (issues : List Issue) :
    (dedupe issues).Pairwise fun a b => inOrder a b = true :=
  List.pairwise_mergeSort inOrder_trans inOrder_total _

/-- Issues at one place and of one rule stay in the order in which they were found. -/
theorem dedupe_of_ties {issues : List Issue} (h : ∀ j ∈ issues, ties inOrder i j = true) :
    dedupe issues = gathered issues := by
  refine List.mergeSort_of_pairwise (List.pairwise_of_forall_mem_list ?_)
  have hties : ∀ j ∈ gathered issues, inOrder i j = true ∧ inOrder j i = true := by
    intro j hj
    have hj := h j ((mem_of_mem_foldl_addIssue hj).resolve_left List.not_mem_nil)
    exact Bool.and_eq_true_iff.1 hj
  intro a ha b hb
  exact inOrder_trans a i b (hties a ha).2 (hties b hb).1

/-- Issues that are the same stand at one place. -/
theorem respectsSame_ties (i : Issue) : RespectsSame (ties inOrder i) := by
  intro a b hsame
  obtain ⟨hfile, hrule, hline, hcolumn, -⟩ := Fingerprint.same_iff.1 hsame
  replace hfile : a.filePath = b.filePath := hfile
  replace hrule : a.ruleId = b.ruleId := hrule
  replace hline : a.line.value = b.line.value := hline
  replace hcolumn : a.column.value = b.column.value := hcolumn
  simp only [ties, inOrder, hfile, hrule, hline, hcolumn]

/-- Issues at one place are in one file. -/
theorem filePath_of_ties (h : ties inOrder i j = true) : j.filePath = i.filePath := by
  obtain ⟨hij, hji⟩ := Bool.and_eq_true_iff.1 h
  by_contra hne
  have hlt : i.filePath < j.filePath := by
    simpa [inOrder, Ne.symm hne] using hij
  have hgt : j.filePath < i.filePath := by
    simpa [inOrder, hne] using hji
  exact String.lt_asymm hlt hgt

/-- **Issues can be put together in parts.** -/
theorem dedupe_append (xs ys : List Issue) :
    dedupe (dedupe xs ++ dedupe ys) = dedupe (xs ++ ys) := by
  refine eq_of_sorted inOrder_total (pairwise_dedupe _) (pairwise_dedupe _) fun i => ?_
  -- in what stands at one place nothing is sorted
  have hties : ∀ issues : List Issue, ∀ j ∈ issues.filter (ties inOrder i),
      ties inOrder i j = true := fun _ _ hj => (List.mem_filter.1 hj).2
  have hpart : ∀ issues : List Issue, (dedupe issues).filter (ties inOrder i) =
      gathered (issues.filter (ties inOrder i)) := by
    intro issues
    rw [← dedupe_filter (respectsSame_ties i), dedupe_of_ties (hties issues)]
  rw [hpart, hpart, List.filter_append, List.filter_append, hpart, hpart, gathered_append]

end CodeAudit.Scan
