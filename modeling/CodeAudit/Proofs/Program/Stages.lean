import CodeAudit.Proofs.Baseline.Previous
import CodeAudit.Proofs.Gate.Loosening
import CodeAudit.Proofs.Report.Decoding
import CodeAudit.Proofs.Scan.Hybrid

/-!
# The stages of a run

What it takes to come through the preparation (`prepare_eq_ok`), what a run that has written a
report went through (`exists_of_written`), and how the gate ends it (`ending_conclude`). The gate
can judge every result of a scan, since every issue of a scan has a severity with a rank, unless a
number that it has to tell of is too large (`exists_reasons_iff`).
-/

namespace CodeAudit

/-! ## Severities -/

namespace Scan

variable {disk : Disk} {machine : External.Machine} {p : Plan}
  {coverage : Option Coverage} {result : ScanResult}

/-- The rules of the catalogue have severities with a rank. -/
theorem rank?_of_mem_targetIssues {t : Target} {i : Issue} (h : i ∈ targetIssues p t) :
    i.severity.rank?.isSome = true := by
  have hall : ∀ r ∈ Catalogue.all, r.severity.rank?.isSome = true := by decide
  obtain ⟨r, hr, -, hseverity⟩ := exists_rule_of_mem_targetIssues h
  rw [hseverity]
  exact hall r hr

/-- **Every issue of a scan has a severity with a rank.** -/
theorem rank?_of_result (h : (runWithin disk machine p coverage).result = .ok result) :
    ∀ i ∈ result.issues, i.severity.rank?.isSome = true := by
  have hrun := run_of_runWithin h
  obtain ⟨tree, engine, hroot, hengine⟩ := exists_engine_of_result hrun
  intro i hi
  rw [issues_of_result hroot hengine hrun] at hi
  rcases List.mem_append.1 (mem_of_mem_dedupe hi) with hi | hi
  · split at hi
    · obtain ⟨t, -, hi⟩ := List.mem_flatMap.1 hi
      exact rank?_of_mem_targetIssues hi
    · exact absurd hi List.not_mem_nil
  · obtain ⟨found, hfound, hi⟩ := exists_of_mem_added hi
    exact (exists_of_mem_externalFindings hfound hi).2

end Scan

/-! ## The gate -/

namespace Gate

open Number

variable {limits : Limits} {issues : List Issue}

/-- Issues with ranks can be compared with a rank. -/
theorem exists_reaches (threshold : Nat) (h : ∀ i ∈ issues, i.severity.rank?.isSome = true) :
    ∃ b, reaches threshold issues = .ok b := by
  induction issues with
  | nil => exact ⟨false, rfl⟩
  | cons i issues ih =>
    obtain ⟨n, hn⟩ := Option.isSome_iff_exists.1 (h i List.mem_cons_self)
    have hrank : rank i.severity = .ok n := by rw [rank, hn]
    obtain ⟨b, hb⟩ := ih fun j hj => h j (List.mem_cons_of_mem i hj)
    rw [reaches, hrank]
    by_cases hreached : threshold ≤ n
    · exact ⟨true, if_pos hreached⟩
    · exact ⟨b, (if_neg hreached).trans hb⟩

/-- **Limits that the gate can tell of**: those that are exceeded have no more digits than can be
written, and the shares that it compares and tells of are doubles. -/
structure Tellable (limits : Limits) (result : ScanResult) : Prop where
  counts : ∀ b ∈ bounds limits result.issues, ∀ q, b.limit = some q → exceeds b.count q = true →
    q.isWritable = true
  coverage : ∀ least c, limits.minCoverage = some least → result.coverage = some c →
    ∃ rate, c.lineRate.toFloat? = some rate ∧
      ((Quantity.real (rate * 100.0)).isLess least = true → least.toFloat?.isSome = true)

/-- A count can be told of unless it exceeds a limit that cannot be written. -/
theorem exists_countReasons_iff {b : Bound} : (∃ found, countReasons b = .ok found) ↔
    ∀ q, b.limit = some q → exceeds b.count q = true → q.isWritable = true := by
  unfold countReasons
  cases b.limit with
  | none => simp
  | some q =>
    simp only [Option.some.injEq, forall_eq']
    cases exceeds b.count q with
    | false => simp
    | true => cases q.isWritable <;> simp

/-- A share is a double if it is in their range. -/
theorem share_eq_ok_iff {q : Quantity} {x : Float} : share q = .ok x ↔ q.toFloat? = some x := by
  unfold share
  cases q.toFloat? with
  | none => simp
  | some y => simp

/-- A coverage can be told of if it is in the range of doubles, and the least one too where it is
not reached. -/
theorem exists_coverageReasons_iff {least : Option Quantity} {coverage : Option Coverage} :
    (∃ found, coverageReasons least coverage = .ok found) ↔
      ∀ q c, least = some q → coverage = some c → ∃ rate, c.lineRate.toFloat? = some rate ∧
        ((Quantity.real (rate * 100.0)).isLess q = true → q.toFloat?.isSome = true) := by
  cases least with
  | none => simp [coverageReasons]
  | some q =>
    cases coverage with
    | none => simp [coverageReasons]
    | some c =>
      have hall : ∀ P : Quantity → Coverage → Prop,
          (∀ q' c', some q = some q' → some c = some c' → P q' c') ↔ P q c := by
        intro P
        constructor
        · intro h
          exact h q c rfl rfl
        · rintro h q' c' ⟨⟩ ⟨⟩
          exact h
      rw [hall]
      simp only [coverageReasons, bind_eq_ok, share_eq_ok_iff]
      rw [exists_comm]
      refine exists_congr fun rate => ?_
      rw [exists_and_left]
      refine and_congr_right fun _ => ?_
      cases (Quantity.real (rate * 100.0)).isLess q with
      | false => simp [pure, Except.pure]
      | true => cases hq : q.toFloat? <;> simp [bind_eq_ok, share_eq_ok_iff, hq, pure, Except.pure]

/-- **The gate can judge issues with ranks**, from a severity with a rank on, if it can tell of the
limits. -/
theorem exists_reasons_iff {result : ScanResult}
    (hlimit : ∀ s, limits.failOn = some s → s.rank?.isSome = true)
    (h : ∀ i ∈ result.issues, i.severity.rank?.isSome = true) :
    (∃ found, reasons limits result = .ok found) ↔ Tellable limits result := by
  have hseverities : ∃ found, severityReasons limits result.issues = .ok found := by
    unfold severityReasons
    cases hfail : limits.failOn with
    | none => exact ⟨_, rfl⟩
    | some s =>
      obtain ⟨n, hn⟩ := Option.isSome_iff_exists.1 (hlimit s hfail)
      have hrank : rank s = .ok n := by rw [rank, hn]
      obtain ⟨b, hb⟩ := exists_reaches n h
      simp only [hrank, hb, bind, Except.bind]
      cases b with
      | true => exact ⟨_, rfl⟩
      | false => exact ⟨_, rfl⟩
  obtain ⟨severities, hseverities⟩ := hseverities
  have hcounts : (∃ found, (bounds limits result.issues).mapM countReasons = .ok found) ↔
      ∀ b ∈ bounds limits result.issues, ∀ q, b.limit = some q → exceeds b.count q = true →
        q.isWritable = true := by
    simp only [exists_mapM_eq_ok, exists_countReasons_iff]
  simp only [reasons, bind_eq_ok]
  constructor
  · rintro ⟨-, -, -, counts, hfound, coverage, hcoverage, -⟩
    exact ⟨hcounts.1 ⟨counts, hfound⟩, exists_coverageReasons_iff.1 ⟨coverage, hcoverage⟩⟩
  · intro htell
    obtain ⟨counts, hfound⟩ := hcounts.2 htell.counts
    obtain ⟨coverage, hcoverage⟩ := exists_coverageReasons_iff.2 htell.coverage
    exact ⟨_, severities, hseverities, counts, hfound, coverage, hcoverage, rfl⟩

/-- Without a least coverage the gate looks at issues only. -/
theorem reasons_congr (h : limits.minCoverage = none) (files files' : Int)
    (coverage coverage' : Option Coverage) :
    reasons limits ⟨issues, files, coverage⟩ = reasons limits ⟨issues, files', coverage'⟩ := by
  unfold reasons coverageReasons
  rw [h]

end Gate

namespace Program

open CommandLine (ScanOptions)

variable {w : World} {stack : Stack} {disk : Disk} {o : ScanOptions} {p : Prepared} {path : Path}
  {text : String} {result : ScanResult}

/-- The code with which a run exits. -/
def Ending.code? : Ending → Option Nat
  | exit code => some code
  | crash _ => none

/-- A run has a code exactly if it exits with it. -/
theorem Ending.code?_eq_some {e : Ending} {n : Nat} : e.code? = some n ↔ e = .exit n := by
  cases e with
  | exit code => simp [code?]
  | crash c => simp [code?]

/-- A value has a text exactly if it is it. -/
theorem string?_eq_some {v : Toml.Value} {s : String} : string? v = some s ↔ v = .str s := by
  cases v with
  | str t => simp [string?]
  | _ => simp [string?]

/-! ## The preparation -/

/-- Arguments that are understood as options of a scan lead to that scan. -/
theorem run_of_options {arguments : List String} (h : CommandLine.options arguments = .ok o)
    (w : World) : run w arguments = runScanWithin w o := by
  unfold run
  rw [h]

/-- What is to be scanned is found exactly if its path leads somewhere. -/
theorem requireTarget_eq_ok :
    requireTarget disk path = .ok () ↔ disk.exists? path = true := by
  constructor
  · intro h
    obtain ⟨there, hthere, h⟩ := bind_eq_ok.1 h
    cases there with
    | true => exact exists_of_isThere hthere
    | false => exact absurd h (by simp)
  · intro h
    exact bind_eq_ok.2 ⟨true, mapError_eq_ok.2 (Disk.seek_eq_ok_true.2 h), rfl⟩

/-- Settings are sound exactly if nothing is wrong with them. -/
theorem requireSound_eq_ok {s : Settings} : requireSound s = .ok () ↔ s.problems = .ok [] := by
  constructor
  · intro h
    obtain ⟨problems, hproblems, h⟩ := bind_eq_ok.1 h
    cases problems with
    | nil => exact mapError_eq_ok.1 hproblems
    | cons problem rest => exact absurd h (by simp)
  · intro h
    exact bind_eq_ok.2 ⟨[], mapError_eq_ok.2 h, rfl⟩

/-- **What it takes to come through the preparation.** -/
theorem prepare_eq_ok : prepare w o = .ok p ↔
    ∃ loaded, Settings.load w.machine.stack w.disk o.config = .ok loaded ∧
      w.disk.exists? (Path.ofString o.path) = true ∧ loaded.merge o = .ok p.settings ∧
      p.settings.problems = .ok [] ∧ baselinePath w.disk p.settings = .ok p.baseline ∧
      coverageOf w.disk p.settings = .ok p.coverage ∧
      planOf o.path p.settings.scan = .ok p.plan := by
  constructor
  · intro h
    obtain ⟨loaded, hloaded, h⟩ := bind_eq_ok.1 h
    obtain ⟨⟨⟩, htarget, h⟩ := bind_eq_ok.1 h
    obtain ⟨settings, hsettings, h⟩ := bind_eq_ok.1 h
    obtain ⟨⟨⟩, hsound, h⟩ := bind_eq_ok.1 h
    obtain ⟨baseline, hbaseline, h⟩ := bind_eq_ok.1 h
    obtain ⟨coverage, hcoverage, h⟩ := bind_eq_ok.1 h
    obtain ⟨plan, hplan, h⟩ := bind_eq_ok.1 h
    obtain rfl := Except.ok.inj h
    exact ⟨loaded, mapError_eq_ok.1 hloaded, requireTarget_eq_ok.1 htarget,
      mapError_eq_ok.1 hsettings, requireSound_eq_ok.1 hsound, hbaseline, hcoverage,
      mapError_eq_ok.1 hplan⟩
  · rintro ⟨loaded, hloaded, htarget, hsettings, hproblems, hbaseline, hcoverage, hplan⟩
    refine bind_eq_ok.2 ⟨loaded, mapError_eq_ok.2 hloaded, ?_⟩
    refine bind_eq_ok.2 ⟨(), requireTarget_eq_ok.2 htarget, ?_⟩
    refine bind_eq_ok.2 ⟨p.settings, mapError_eq_ok.2 hsettings, ?_⟩
    refine bind_eq_ok.2 ⟨(), requireSound_eq_ok.2 hproblems, ?_⟩
    refine bind_eq_ok.2 ⟨p.baseline, hbaseline, ?_⟩
    refine bind_eq_ok.2 ⟨p.coverage, hcoverage, ?_⟩
    exact bind_eq_ok.2 ⟨p.plan, mapError_eq_ok.2 hplan, rfl⟩

/-- A name of a severity that passes for sound is one with a rank. -/
theorem rank?_of_severityProblems {name : String}
    (h : Settings.severityProblems (some (.str name)) = .ok []) :
    (Severity.ofName name).rank?.isSome = true := by
  replace h : Except.ok (Settings.problemIf (!Settings.isOneOf
    ["low", "medium", "high", "critical"] (.str name)) .unknownSeverity) = Except.ok [] := h
  have hone : Settings.isOneOf ["low", "medium", "high", "critical"] (.str name) = true := by
    by_contra hother
    rw [Bool.eq_false_iff.2 hother] at h
    exact absurd (Except.ok.inj h) (by simp [Settings.problemIf])
  have hall : ∀ name ∈ ["low", "medium", "high", "critical"],
      (Severity.ofName name).rank?.isSome = true := by decide
  exact hall name (List.contains_iff_mem.1 hone)

/-- Settings without problems have, if any, a severity with a rank to fail on. -/
theorem rank?_of_problems {s : Settings} (h : s.problems = .ok []) :
    ∀ severity, (limitsOf s.gate).failOn = some severity → severity.rank?.isSome = true := by
  intro severity hfail
  obtain ⟨v, hv, hseverity⟩ := Option.map_eq_some_iff.1 hfail
  obtain ⟨v', hv', hname⟩ := Option.bind_eq_some_iff.1 hv
  obtain ⟨problems, hproblems, h⟩ := bind_eq_ok.1 h
  obtain ⟨limits, -, h⟩ := bind_eq_ok.1 h
  obtain ⟨coverage, -, h⟩ := bind_eq_ok.1 h
  have hnone := Except.ok.inj h
  simp only [List.append_eq_nil_iff] at hnone
  obtain rfl := hnone.1.1.1.1.1
  rw [hv', string?_eq_some.1 hname] at hproblems
  rw [← hseverity]
  exact rank?_of_severityProblems hproblems

/-! ## The report and the gate -/

/-- **A run that wrote a report** came through the scan and ends as its conclusion says. -/
theorem exists_of_written (hp : prepare w o = .ok p)
    (h : (runScanWithin w o).written = some (path, text)) :
    ∃ result d, (Scan.runWithin w.disk w.machine p.plan p.coverage).result = .ok result ∧
      deliver w.machine.stack w.disk p.settings.report result = .ok d ∧
      d.written = some (path, text) ∧ (runScanWithin w o).disk = d.disk ∧
      (runScanWithin w o).ending = (conclude w.machine.stack d.disk p result).1 := by
  unfold runScanWithin at h ⊢
  simp only [hp] at h ⊢
  unfold afterScan at h ⊢
  dsimp only at h ⊢
  cases hscan : (Scan.runWithin w.disk w.machine p.plan p.coverage).result with
  | error f =>
    simp only [hscan] at h
    split at h
    · exact absurd h (by simp)
    · exact absurd h (by simp)
  | ok result =>
    simp only [hscan] at h ⊢
    cases hd : deliver w.machine.stack w.disk p.settings.report result with
    | error f =>
      simp only [hd] at h
      exact absurd h (by simp)
    | ok d =>
      simp only [hd] at h
      exact ⟨result, d, rfl, hd, h, rfl, rfl⟩

/-- Without a baseline a run ends as the gate decides about its result. -/
theorem ending_conclude (hbaseline : p.baseline = none) {reasons : List String}
    (h : Gate.reasons (limitsOf p.settings.gate) result = .ok reasons) :
    (conclude stack disk p result).1 = .exit (if reasons = [] then 0 else 2) := by
  unfold conclude compareBaseline judge
  simp only [hbaseline, h]
  cases reasons with
  | nil => rfl
  | cons reason rest => rfl

end Program

end CodeAudit
