import CodeAudit.Baseline
import CodeAudit.Gate
import CodeAudit.Proofs.Disk.Writing
import CodeAudit.Proofs.Report.Files
import Mathlib.Order.Compare

/-!
# Fewer issues and looser limits

What passes the gate still passes with fewer issues and under limits that allow more. The gate
reads a result through counts and through the ranks of its severities (`reasons_eq_nil_iff`), and
each of them can only fall when issues are taken away. A severity without a rank makes the gate
fail to judge; but where it has passed with a limit on severities, it has looked at every issue, so
none of those that are left can be of that kind.
-/

namespace CodeAudit

open Number

/-! ## Counts and limits -/

/-- A whole number above a double stays above it when it grows. -/
theorem Number.compareIntFloat_gt_of_le {m n : Int} {x : Float} (hmn : m ≤ n)
    (h : compareIntFloat m x = some .gt) : compareIntFloat n x = some .gt := by
  unfold compareIntFloat at h ⊢
  cases hx : Binary.ofFloat x with
  | nan => simp [hx] at h
  | infinite negative => simpa [hx] using h
  | finite negative mantissa power =>
    simp only [hx, Option.some.injEq] at h ⊢
    split at h
    next hpower =>
      rw [if_pos hpower, compare_gt_iff_gt]
      exact Int.lt_of_lt_of_le (compare_gt_iff_gt.1 h) hmn
    next hpower =>
      rw [if_neg hpower, compare_gt_iff_gt]
      exact Int.lt_of_lt_of_le (compare_gt_iff_gt.1 h)
        (Int.mul_le_mul_of_nonneg_right hmn (Int.natCast_nonneg _))

namespace Gate

variable {count count' : Nat} {limit : Quantity}

/-- A count exceeds a whole number that is less. -/
theorem exceeds_iff_of_whole? {n : Int} (h : limit.whole? = some n) :
    exceeds count limit = true ↔ n < count := by
  have hcompare : limit.compare? (.whole count) = some (compare n (count : Int)) := by
    cases limit with
    | whole m => simp_all [Quantity.compare?, Quantity.whole?]
    | truth b => simp_all [Quantity.compare?, Quantity.whole?]
    | real x => simp [Quantity.whole?] at h
  rw [exceeds, Quantity.isLess, hcompare, beq_iff_eq, Option.some.injEq, compare_lt_iff_lt]

/-- A count exceeds a double that it is above. -/
theorem exceeds_real_iff {x : Float} :
    exceeds count (.real x) = true ↔ compareIntFloat count x = some .gt := by
  rw [exceeds, Quantity.isLess, beq_iff_eq]
  cases h : compareIntFloat count x with
  | none => simp [Quantity.compare?, Quantity.whole?, h]
  | some o => cases o <;> simp [Quantity.compare?, Quantity.whole?, h]

/-- **A count that exceeds a limit exceeds it when it grows**, whatever kind of number the limit
is. -/
theorem exceeds_of_le (hcount : count ≤ count') (h : exceeds count limit = true) :
    exceeds count' limit = true := by
  have hcast : (count : Int) ≤ count' := Int.ofNat_le.2 hcount
  cases limit with
  | real x => exact exceeds_real_iff.2 (compareIntFloat_gt_of_le hcast (exceeds_real_iff.1 h))
  | whole n =>
    have hn : (Quantity.whole n).whole? = some n := rfl
    rw [exceeds_iff_of_whole? hn] at h ⊢
    omega
  | truth b =>
    have hn : (Quantity.truth b).whole? = some (truthValue b) := rfl
    rw [exceeds_iff_of_whole? hn] at h ⊢
    omega

/-- Whether a count stays within a limit that may be set. -/
def Within (limit : Option Quantity) (count : Nat) : Prop :=
  ∀ q, limit = some q → exceeds count q = false

/-- A count is no reason to fail exactly if it stays within its limit. -/
theorem countReasons_eq_nil_iff {b : Bound} :
    countReasons b = .ok [] ↔ Within b.limit b.count := by
  unfold countReasons Within
  cases b.limit with
  | none => simp
  | some q =>
    simp only [Option.some.injEq, forall_eq']
    cases exceeds b.count q with
    | false => simp
    | true => cases q.isWritable <;> simp

/-! ## Passing -/

/-- A rank is found exactly if there is one. -/
theorem rank_eq_ok_iff {s : Severity} {n : Nat} : rank s = .ok n ↔ s.rank? = some n := by
  unfold rank
  cases s.rank? with
  | none => simp
  | some m => simp

/-- No issue reaches a rank exactly if each has a lower one. -/
theorem reaches_eq_false_iff {threshold : Nat} {issues : List Issue} :
    reaches threshold issues = .ok false ↔
      ∀ i ∈ issues, ∃ n, i.severity.rank? = some n ∧ n < threshold := by
  induction issues with
  | nil => simp [reaches]
  | cons i rest ih =>
    rw [reaches, bind_eq_ok, List.forall_mem_cons, ← ih]
    constructor
    · rintro ⟨n, hn, h⟩
      split at h
      next => exact absurd h (by simp [pure, Except.pure])
      next hlow => exact ⟨⟨n, rank_eq_ok_iff.1 hn, Nat.not_le.1 hlow⟩, h⟩
    · rintro ⟨⟨n, hn, hlow⟩, h⟩
      refine ⟨n, rank_eq_ok_iff.2 hn, ?_⟩
      rw [if_neg (Nat.not_le.2 hlow)]
      exact h

/-- **A result that stays within every limit.** -/
structure Passes (limits : Limits) (result : ScanResult) : Prop where
  /-- Every severity has a rank, and it is below that of the severity that is not allowed. -/
  severity : ∀ s, limits.failOn = some s → ∃ n, s.rank? = some n ∧
    ∀ i ∈ result.issues, ∃ m, i.severity.rank? = some m ∧ m < n
  counts : ∀ b ∈ bounds limits result.issues, Within b.limit b.count
  coverage : coverageReasons limits.minCoverage result.coverage = .ok []

/-- Severities are no reason to fail if all are below the one that is not allowed. -/
theorem severityReasons_eq_nil_iff {limits : Limits} {issues : List Issue} :
    severityReasons limits issues = .ok [] ↔ ∀ s, limits.failOn = some s → ∃ n,
      s.rank? = some n ∧ ∀ i ∈ issues, ∃ m, i.severity.rank? = some m ∧ m < n := by
  unfold severityReasons
  cases limits.failOn with
  | none => simp
  | some s =>
    simp only [Option.some.injEq, forall_eq', bind_eq_ok, rank_eq_ok_iff, ← reaches_eq_false_iff]
    refine exists_congr fun n => and_congr_right fun _ => ?_
    constructor
    · rintro ⟨reached, hreached, h⟩
      cases reached with
      | true => exact absurd h (by simp [pure, Except.pure])
      | false => exact hreached
    · intro h
      exact ⟨false, h, rfl⟩

/-- **The gate has no reason to fail a result exactly if it stays within every limit.** -/
theorem reasons_eq_nil_iff {limits : Limits} {result : ScanResult} :
    reasons limits result = .ok [] ↔ Passes limits result := by
  have hcounts : (∃ counts, (bounds limits result.issues).mapM countReasons = .ok counts ∧
      counts.flatten = []) ↔ ∀ b ∈ bounds limits result.issues, Within b.limit b.count := by
    simp only [exists_mapM_eq_ok_flatten_nil, countReasons_eq_nil_iff]
  simp only [reasons, bind_eq_ok]
  constructor
  · rintro ⟨severities, hseverities, counts, hmap, coverage, hcoverage, h⟩
    have hnil := Except.ok.inj h
    simp only [List.append_eq_nil_iff] at hnil
    obtain ⟨⟨rfl, hflatten⟩, rfl⟩ := hnil
    exact ⟨severityReasons_eq_nil_iff.1 hseverities, hcounts.1 ⟨counts, hmap, hflatten⟩, hcoverage⟩
  · intro h
    obtain ⟨counts, hmap, hflatten⟩ := hcounts.2 h.counts
    refine ⟨[], severityReasons_eq_nil_iff.2 h.severity, counts, hmap, [], h.coverage, ?_⟩
    rw [hflatten]
    rfl

/-! ## Looser limits -/

/-- **A limit on a count that allows as much as another**: it is not set, or both are, and they are
the same or whole numbers in that order. -/
def Looser (loose strict : Option Quantity) : Prop :=
  ∀ q', loose = some q' → ∃ q, strict = some q ∧
    (q = q' ∨ ∃ n n', q.whole? = some n ∧ q'.whole? = some n' ∧ n ≤ n')

theorem Looser.refl (limit : Option Quantity) : Looser limit limit :=
  fun q hq => ⟨q, hq, .inl rfl⟩

/-- A count that stays within a limit stays within a looser one when it falls. -/
theorem Within.of_looser {loose strict : Option Quantity} (h : Within strict count)
    (hloose : Looser loose strict) (hcount : count' ≤ count) : Within loose count' := by
  intro q' hq'
  obtain ⟨q, hq, horder⟩ := hloose q' hq'
  have hstrict : exceeds count' q = false := by
    rw [Bool.eq_false_iff]
    intro hexceeds
    exact absurd (exceeds_of_le hcount hexceeds) (by simp [h q hq])
  rcases horder with rfl | ⟨n, n', hn, hn', hle⟩
  · exact hstrict
  · rw [Bool.eq_false_iff, ne_eq, exceeds_iff_of_whole? hn] at hstrict
    rw [Bool.eq_false_iff, ne_eq, exceeds_iff_of_whole? hn']
    omega

end Gate

/-- **Limits that allow as much as others**: each limit on a count is looser, the severity from
which on issues are not allowed is not lower, and the least coverage is the same. -/
structure Limits.Loosens (loose strict : Limits) : Prop where
  failOn : ∀ s', loose.failOn = some s' → ∃ s, strict.failOn = some s ∧
    (s = s' ∨ ∃ n n', s.rank? = some n ∧ s'.rank? = some n' ∧ n ≤ n')
  maxIssues : Gate.Looser loose.maxIssues strict.maxIssues
  maxFilesWithIssues : Gate.Looser loose.maxFilesWithIssues strict.maxFilesWithIssues
  maxLow : Gate.Looser loose.maxLow strict.maxLow
  maxMedium : Gate.Looser loose.maxMedium strict.maxMedium
  maxHigh : Gate.Looser loose.maxHigh strict.maxHigh
  maxCritical : Gate.Looser loose.maxCritical strict.maxCritical
  minCoverage : loose.minCoverage = strict.minCoverage

theorem Limits.Loosens.refl (limits : Limits) : limits.Loosens limits where
  failOn s hs := ⟨s, hs, .inl rfl⟩
  maxIssues := .refl _
  maxFilesWithIssues := .refl _
  maxLow := .refl _
  maxMedium := .refl _
  maxHigh := .refl _
  maxCritical := .refl _
  minCoverage := rfl

namespace Gate

variable {loose strict : Limits} {result fewer : ScanResult}

/-- **A result that stays within limits does so with fewer issues and under looser limits.** -/
theorem Passes.mono (h : Passes strict result) (hloose : loose.Loosens strict)
    (hissues : fewer.issues.Sublist result.issues) (hcoverage : fewer.coverage = result.coverage) :
    Passes loose fewer where
  severity s' hs' := by
    obtain ⟨s, hs, horder⟩ := hloose.failOn s' hs'
    obtain ⟨n, hn, hbelow⟩ := h.severity s hs
    have hrank : ∃ n', s'.rank? = some n' ∧ n ≤ n' := by
      rcases horder with rfl | ⟨m, n', hm, hn', hle⟩
      · exact ⟨n, hn, Nat.le_refl n⟩
      · obtain rfl : n = m := Option.some.inj (hn.symm.trans hm)
        exact ⟨n', hn', hle⟩
    obtain ⟨n', hn', hle⟩ := hrank
    refine ⟨n', hn', fun i hi => ?_⟩
    obtain ⟨m, hm, hlow⟩ := hbelow i (hissues.subset hi)
    exact ⟨m, hm, by omega⟩
  counts := by
    have hfiles : (filesOf fewer.issues).length ≤ (filesOf result.issues).length :=
      length_filesOf_le_of_mem fun i hi => mem_filesOf.2 ⟨i, hissues.subset hi, rfl⟩
    have hall := h.counts
    simp only [bounds, List.forall_mem_cons, List.not_mem_nil, false_implies, implies_true,
      and_true] at hall ⊢
    obtain ⟨htotal, hwith, hlow, hmedium, hhigh, hcritical⟩ := hall
    exact ⟨htotal.of_looser hloose.maxIssues hissues.length_le,
      hwith.of_looser hloose.maxFilesWithIssues hfiles,
      hlow.of_looser hloose.maxLow hissues.countP_le,
      hmedium.of_looser hloose.maxMedium hissues.countP_le,
      hhigh.of_looser hloose.maxHigh hissues.countP_le,
      hcritical.of_looser hloose.maxCritical hissues.countP_le⟩
  coverage := by rw [hloose.minCoverage, hcoverage]; exact h.coverage

/-- **What passes the gate passes it with fewer issues and under looser limits**; in particular it
passes without the issues that are known, whichever these are. -/
theorem passes_with_fewer_issues_under_looser_limits (hloose : loose.Loosens strict)
    (hissues : fewer.issues.Sublist result.issues) (hcoverage : fewer.coverage = result.coverage)
    (h : reasons strict result = .ok []) :
    reasons loose fewer = .ok [] ∧
      ∀ known, reasons strict (Baseline.newIssues result known).1 = .ok [] := by
  have hpasses := reasons_eq_nil_iff.1 h
  refine ⟨reasons_eq_nil_iff.2 (hpasses.mono hloose hissues hcoverage), fun known => ?_⟩
  exact reasons_eq_nil_iff.2 (hpasses.mono (.refl strict) List.filter_sublist rfl)

/-- An issue of the severity and in the file that are given. -/
def issueIn (filePath : String) (severity : Severity) : Issue :=
  ⟨"SS004", "t", severity, "m", filePath, 1, 1⟩

/-- A result with three issues in two files. -/
def threeIssues : ScanResult :=
  ⟨[issueIn "a.py" .low, issueIn "b.py" .medium, issueIn "b.py" .low], 2, none⟩

/-- Limits that it just meets. -/
def tightLimits : Limits where
  failOn := some .high
  maxIssues := some (.whole 3)
  maxFilesWithIssues := some (.whole 2)
  maxLow := some (.whole 2)
  maxMedium := some (.whole 1)

/-- Limits that allow more of everything. -/
def widerLimits : Limits where
  failOn := some .critical
  maxIssues := some (.whole 10)
  maxLow := some (.whole 2)
  maxMedium := some (.whole 1)

/-- Without the issue in the first file the three issues pass under the wider limits. -/
theorem threeIssues_pass_with_two_under_widerLimits :
    reasons tightLimits threeIssues = .ok [] ∧
      reasons widerLimits { threeIssues with issues := threeIssues.issues.drop 1 } = .ok [] ∧
      reasons tightLimits
        (Baseline.newIssues threeIssues [(issueIn "b.py" .low).fingerprint]).1 = .ok [] := by
  have htight : reasons tightLimits threeIssues = .ok [] := by rfl
  have hloose : widerLimits.Loosens tightLimits := by
    refine ⟨?_, ?_, ?_, ?_, ?_, ?_, ?_, rfl⟩
    · rintro _ ⟨⟩
      exact ⟨.high, rfl, .inr ⟨3, 4, rfl, rfl, by decide⟩⟩
    · rintro _ ⟨⟩
      exact ⟨.whole 3, rfl, .inr ⟨3, 10, rfl, rfl, by decide⟩⟩
    · rintro _ ⟨⟩
    · exact .refl _
    · exact .refl _
    · exact .refl _
    · exact .refl _
  obtain ⟨hfewer, hnew⟩ := @passes_with_fewer_issues_under_looser_limits widerLimits tightLimits
    threeIssues { threeIssues with issues := threeIssues.issues.drop 1 } hloose
    (List.drop_sublist _ _) rfl htight
  exact ⟨htight, hfewer, hnew _⟩

end Gate

end CodeAudit
