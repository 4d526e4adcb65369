import CodeAudit.Baseline

/-!
# Known issues

A baseline keeps of the fingerprints in a report one for each issue. Which issues it then knows is
decided by sameness, which compares coordinates by value: `Collects` says that a list of
fingerprints stands for the issues it was collected from, and everything about new issues is read
off it.
-/

namespace CodeAudit

namespace Fingerprint

variable {a b c : Fingerprint}

/-- Fingerprints are of the same issue if their parts agree, coordinates by value. -/
theorem same_iff : a.same b = true ↔ a.filePath = b.filePath ∧ a.ruleId = b.ruleId ∧
    a.line.value = b.line.value ∧ a.column.value = b.column.value ∧ a.message = b.message := by
  simp [same, and_assoc]

@[simp] theorem same_refl (a : Fingerprint) : a.same a = true :=
  same_iff.2 ⟨rfl, rfl, rfl, rfl, rfl⟩

theorem same_symm (h : a.same b = true) : b.same a = true := by
  obtain ⟨h1, h2, h3, h4, h5⟩ := same_iff.1 h
  exact same_iff.2 ⟨h1.symm, h2.symm, h3.symm, h4.symm, h5.symm⟩

theorem same_trans (h : a.same b = true) (h' : b.same c = true) : a.same c = true := by
  obtain ⟨h1, h2, h3, h4, h5⟩ := same_iff.1 h
  obtain ⟨k1, k2, k3, k4, k5⟩ := same_iff.1 h'
  exact same_iff.2 ⟨h1.trans k1, h2.trans k2, h3.trans k3, h4.trans k4, h5.trans k5⟩

end Fingerprint

namespace Baseline

variable {known found : List Fingerprint}

/-- An issue is known if one of the fingerprints is of it. -/
theorem knows_iff {f : Fingerprint} : knows known f = true ↔ ∃ k ∈ known, k.same f = true :=
  List.any_eq_true

/-- **Fingerprints that stand for the issues they were collected from**: each is one of those that
were found, no two are of the same issue, and every issue that was found is known. -/
structure Collects (known found : List Fingerprint) : Prop where
  mem : ∀ f ∈ known, f ∈ found
  apart : known.Pairwise fun a b => ¬ a.same b = true
  knows : ∀ f ∈ found, knows known f = true

/-- Which issues are known is decided by what was found. -/
theorem Collects.knows_iff (h : Collects known found) {f : Fingerprint} :
    Baseline.knows known f = true ↔ ∃ g ∈ found, g.same f = true := by
  rw [Baseline.knows_iff]
  constructor
  · rintro ⟨k, hk, hsame⟩
    exact ⟨k, h.mem k hk, hsame⟩
  · rintro ⟨g, hg, hsame⟩
    obtain ⟨k, hk, hkg⟩ := Baseline.knows_iff.1 (h.knows g hg)
    exact ⟨k, hk, Fingerprint.same_trans hkg hsame⟩

/-- One more fingerprint is kept if its issue is not known. -/
theorem Collects.step (h : Collects known found) (f : Fingerprint) :
    Collects (if Baseline.knows known f then known else known ++ [f]) (found ++ [f]) := by
  split
  next hf =>
    refine ⟨fun k hk => List.mem_append_left _ (h.mem k hk), h.apart, ?_⟩
    intro g hg
    rcases List.mem_append.1 hg with hg | hg
    · exact h.knows g hg
    · obtain rfl := List.mem_singleton.1 hg
      exact hf
  next hf =>
    refine ⟨?_, ?_, ?_⟩
    · intro k hk
      rcases List.mem_append.1 hk with hk | hk
      · exact List.mem_append_left _ (h.mem k hk)
      · exact List.mem_append_right _ hk
    · refine List.pairwise_append.2 ⟨h.apart, List.pairwise_singleton _ _, ?_⟩
      intro k hk g hg hsame
      obtain rfl := List.mem_singleton.1 hg
      exact hf (Baseline.knows_iff.2 ⟨k, hk, hsame⟩)
    · intro g hg
      rw [Baseline.knows_iff]
      rcases List.mem_append.1 hg with hg | hg
      · obtain ⟨k, hk, hsame⟩ := Baseline.knows_iff.1 (h.knows g hg)
        exact ⟨k, List.mem_append_left _ hk, hsame⟩
      · exact ⟨g, List.mem_append_right _ hg, Fingerprint.same_refl g⟩

/-- **The distinct fingerprints stand for all of them.** -/
theorem collects_distinct (found : List Fingerprint) : Collects (distinct found) found := by
  -- the fold has collected what it has passed
  have hfold : ∀ (passed known : List Fingerprint), Collects known passed →
      Collects (found.foldl (fun known f => if Baseline.knows known f then known else known ++ [f])
        known) (passed ++ found) := by
    induction found with
    | nil => intro passed known h; simpa using h
    | cons f found ih =>
      intro passed known h
      have hrest := ih _ _ (h.step f)
      rwa [List.append_assoc] at hrest
  exact hfold [] [] ⟨fun _ h => absurd h List.not_mem_nil, .nil,
    fun _ h => absurd h List.not_mem_nil⟩

/-! ## New issues -/

variable {issues : List Issue} {result : ScanResult}

/-- **Baselines that agree**: they know the same issues, or cannot be read for the same reason. -/
inductive Agree : Except Fault (List Fingerprint) → Except Fault (List Fingerprint) → Prop
  | error (f : Fault) : Agree (.error f) (.error f)
  | ok {known known' : List Fingerprint} (h : ∀ f, knows known f = knows known' f) :
      Agree (.ok known) (.ok known')

theorem Agree.refl : ∀ baseline, Agree baseline baseline
  | .error f => .error f
  | .ok _ => .ok fun _ => rfl

/-- What is new is decided by what is known. -/
theorem newIssues_congr {known known' : List Fingerprint} (h : ∀ f, knows known f = knows known' f)
    (result : ScanResult) : newIssues result known = newIssues result known' := by
  unfold newIssues
  simp only [h]

/-- Which issues of a result are new, in terms of the issues that were collected. -/
theorem Collects.newIssues_eq (h : Collects known (issues.map (·.fingerprint)))
    (result : ScanResult) :
    (Baseline.newIssues result known).1 = { result with
      issues := result.issues.filter fun i =>
        !issues.any fun j => j.fingerprint.same i.fingerprint } := by
  unfold Baseline.newIssues
  simp only
  congr 1
  refine List.filter_congr fun i _ => ?_
  congr 1
  rw [Bool.eq_iff_iff, h.knows_iff, List.any_eq_true]
  simp only [List.mem_map]
  constructor
  · rintro ⟨_, ⟨j, hj, rfl⟩, hsame⟩
    exact ⟨j, hj, hsame⟩
  · rintro ⟨j, hj, hsame⟩
    exact ⟨_, ⟨j, hj, rfl⟩, hsame⟩

/-- **Nothing is new in the result that was collected**, and all its issues are matched. -/
theorem Collects.newIssues_self (h : Collects known (result.issues.map (·.fingerprint))) :
    Baseline.newIssues result known = ({ result with issues := [] }, result.issues.length) := by
  have hnone : (result.issues.filter fun i => !Baseline.knows known i.fingerprint) = [] := by
    rw [List.filter_eq_nil_iff]
    intro i hi
    simp [h.knows _ (List.mem_map_of_mem hi)]
  simp [Baseline.newIssues, hnone]

end Baseline

end CodeAudit
