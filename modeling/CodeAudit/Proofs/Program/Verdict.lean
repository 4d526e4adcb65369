import CodeAudit.Proofs.Program.Stages

/-!
# The exit code and the written report

A run writes its report before the gate judges the result. Whoever reads the JSON report afterwards
and applies the same limits to the issues in it comes to the verdict that the exit code gives
(`written_report_gives_verdict`): the report lists all issues of the result, with what the gate
looks at.
-/

namespace CodeAudit.Program

open CommandLine (ScanOptions)

variable {w : World} {arguments : List String} {o : ScanOptions} {p : Prepared} {path : Path}
  {text : String} {result : ScanResult} {d : Delivered}

/-- A JSON report that was delivered could be written, and is in the file. -/
theorem bytes_of_deliver (hformat : p.settings.report.format = .str "json")
    (hd : deliver w.machine.stack w.disk p.settings.report result = .ok d)
    (h : d.written = some (path, text)) :
    (Report.data result).isWritable = true ∧
      d.disk.bytes path = .ok (Text.Utf8.encode (Report.render .json result).toList) := by
  obtain ⟨text', htext, ⟨-, hnone⟩ | ⟨out, hwrite, hwritten⟩⟩ := deliver_eq_ok hd
  · rw [hnone] at h
    exact absurd h (by simp)
  rw [hwritten] at h
  obtain ⟨rfl, rfl⟩ := Prod.mk.inj (Option.some.inj h)
  obtain ⟨hwritable, rfl⟩ := reportText_json (by rw [hformat]; rfl) htext
  obtain ⟨f, hfile, hbytes⟩ := Baseline.textBytes_of_writeText hwrite
  refine ⟨hwritable, ?_⟩
  rw [← hbytes]
  exact bind_eq_ok.2 ⟨f, hfile, rfl⟩

/-- Without a baseline in the settings none is prepared. -/
theorem baseline_eq_none (hp : prepare w o = .ok p)
    (h : Settings.isGiven p.settings.gate.baselineReport = false) : p.baseline = none := by
  obtain ⟨loaded, -, -, -, -, hbaseline, -, -⟩ := prepare_eq_ok.1 hp
  obtain ⟨found, hfound, hbaseline⟩ := bind_eq_ok.1 hbaseline
  have hnone : found = none := by
    unfold pathSetting at hfound
    cases hreport : p.settings.gate.baselineReport with
    | none =>
      rw [hreport] at hfound
      exact (Except.ok.inj hfound).symm
    | some v =>
      rw [hreport] at h hfound
      replace h : v.isSet = false := h
      simp only [h] at hfound
      exact (Except.ok.inj hfound).symm
  subst hnone
  exact (Except.ok.inj hbaseline).symm

/-- A JSON report that can be written tells the counts that the gate looks at. -/
theorem isWritable_count {limits : Limits} (h : (Report.data result).isWritable = true) :
    ∀ b ∈ Gate.bounds limits result.issues, Number.isWritable b.count = true := by
  simp only [Report.data, List.cons_append, Json.isWritable, Json.membersWritable,
    Report.countValue, Report.severityCounts, List.map_cons, Bool.and_eq_true] at h
  simp only [Gate.bounds, List.forall_mem_cons]
  generalize Number.isWritable = fits at h ⊢
  obtain ⟨-, hfiles, htotal, ⟨hlow, hmedium, hhigh, hcritical, -⟩, -⟩ := h
  exact ⟨htotal, hfiles, hlow, hmedium, hhigh, hcritical, by simp⟩

/-- Settings without problems have no negative limits. -/
theorem nonneg_of_problems {s : Settings} {issues : List Issue} (h : s.problems = .ok []) :
    ∀ b ∈ Gate.bounds (limitsOf s.gate) issues, ∀ q, b.limit = some q →
      q.isLess (.whole 0) = false := by
  obtain ⟨severity, -, h⟩ := bind_eq_ok.1 h
  obtain ⟨limits, hlimits, h⟩ := bind_eq_ok.1 h
  obtain ⟨coverage, -, h⟩ := bind_eq_ok.1 h
  have hnone := Except.ok.inj h
  simp only [List.append_eq_nil_iff] at hnone
  have hall := exists_mapM_eq_ok_flatten_nil.1 ⟨limits, hlimits, hnone.1.1.1.1.2⟩
  have hsame : (Gate.bounds (limitsOf s.gate) issues).map (·.limit) =
      (Settings.countLimits s.gate).map fun x => x.2.bind (·.quantity?) := rfl
  intro b hb q hq
  have hmem := List.mem_map_of_mem (f := (·.limit)) hb
  rw [hsame, hq] at hmem
  obtain ⟨⟨name, limit⟩, hlimit, hmade⟩ := List.mem_map.1 hmem
  obtain ⟨v, rfl, hv⟩ := Option.bind_eq_some_iff.1 hmade
  obtain ⟨q', hq', hproblem⟩ := bind_eq_ok.1 (hall _ hlimit)
  rw [Toml.Value.limit, hv] at hq'
  obtain rfl := Except.ok.inj hq'
  replace hproblem := Except.ok.inj hproblem
  cases hless : q.isLess (.whole 0) with
  | false => rfl
  | true => exact absurd hproblem (by simp [hless, Settings.problemIf])

/-- **The gate can tell of sound limits** where the counts can be written and no coverage is asked
for: a limit that is exceeded is less than a count. -/
theorem tellable_of_problems {s : Settings} (h : s.problems = .ok [])
    (hwritable : (Report.data result).isWritable = true)
    (hcoverage : (limitsOf s.gate).minCoverage = none) :
    Gate.Tellable (limitsOf s.gate) result where
  counts := by
    intro b hb q hq hexceeds
    have hcount := isWritable_count hwritable b hb
    have hnonneg := nonneg_of_problems h b hb q hq
    cases q with
    | real x => rfl
    | truth t => rfl
    | whole n =>
      have hless : n < b.count := (Gate.exceeds_iff_of_whole? rfl).1 hexceeds
      have hzero : ¬ n < (0 : Nat) := by
        rw [← @Gate.exceeds_iff_of_whole? 0 (.whole n) n rfl, Bool.not_eq_true]
        exact hnonneg
      rw [Number.Quantity.isWritable]
      simp only [Number.isWritable, decide_eq_true_eq] at hcount ⊢
      omega
  coverage := by
    intro least c hleast
    rw [hcoverage] at hleast
    exact absurd hleast (by simp)

/-- **The written report gives the verdict of the run.** The report that a run leaves on the disk is
read back, and the gate, with the limits of the run, finds reasons to fail in the issues that it
lists exactly if the run has not ended with zero. -/
theorem written_report_gives_verdict (hoptions : CommandLine.options arguments = .ok o)
    (hp : prepare w o = .ok p) (hformat : p.settings.report.format = .str "json")
    (hbaseline : Settings.isGiven p.settings.gate.baselineReport = false)
    (hcoverage : p.settings.gate.minCoverage = none)
    (hwritten : (run w arguments).written = some (path, text)) :
    ∃ bytes report issues, (run w arguments).disk.bytes path = .ok bytes ∧
      Report.read? bytes = some report ∧ Report.issues? report = some issues ∧
      ∀ files coverage, ∃ reasons,
        Gate.reasons (limitsOf p.settings.gate) ⟨issues, files, coverage⟩ = .ok reasons ∧
        (reasons = [] ↔ (run w arguments).ending = .exit 0) ∧
        (reasons ≠ [] ↔ (run w arguments).ending = .exit 2) := by
  rw [run_of_options hoptions] at hwritten ⊢
  obtain ⟨result, d, hscan, hd, hout, hdisk, hending⟩ := exists_of_written hp hwritten
  obtain ⟨hwritable, hbytes⟩ := bytes_of_deliver hformat hd hout
  have hranks := Scan.rank?_of_result hscan
  refine ⟨_, _, _, hdisk ▸ hbytes, Report.read?_report hwritable, Report.issues?_report hranks, ?_⟩
  intro files coverage
  obtain ⟨loaded, -, -, -, hproblems, -, -, -⟩ := prepare_eq_ok.1 hp
  have hlimit : (limitsOf p.settings.gate).minCoverage = none := by
    rw [limitsOf, hcoverage]
    rfl
  obtain ⟨reasons, hreasons⟩ := (Gate.exists_reasons_iff (rank?_of_problems hproblems) hranks).2
    (tellable_of_problems hproblems hwritable hlimit)
  have hverdict : (runScanWithin w o).ending = .exit (if reasons = [] then 0 else 2) := by
    rw [hending, ending_conclude (baseline_eq_none hp hbaseline) hreasons]
  refine ⟨reasons, (Gate.reasons_congr hlimit _ _ _ _).trans hreasons, ?_, ?_⟩
  · rw [hverdict]
    by_cases hpasses : reasons = [] <;> simp [hpasses]
  · rw [hverdict]
    by_cases hpasses : reasons = [] <;> simp [hpasses]

/-- The arguments of a scan of the project that allows no grave issue, with a report. -/
def graveArguments : List String :=
  ["scan", "p", "--format", "json", "--out", "out/report.json", "--max-high", "0"]

/-- The path of that report. -/
def graveReport : Path := ⟨.relative, ["out", "report.json"]⟩

/-- The report of a run that fails lists an issue that the gate does not allow. -/
theorem written_report_gives_failure :
    ∃ o p bytes report issues reasons, CommandLine.options graveArguments = .ok o ∧
      prepare (projectWith []) o = .ok p ∧
      (run (projectWith []) graveArguments).disk.bytes graveReport = .ok bytes ∧
      Report.read? bytes = some report ∧ Report.issues? report = some issues ∧
      Gate.reasons (limitsOf p.settings.gate) ⟨issues, 0, none⟩ = .ok reasons ∧ reasons ≠ [] ∧
      (run (projectWith []) graveArguments).ending = .exit 2 := by
  have hprepared : ((CommandLine.options graveArguments).toOption.any fun o =>
      (prepare (projectWith []) o).toOption.any fun p =>
        string? p.settings.report.format == some "json" &&
        !Settings.isGiven p.settings.gate.baselineReport &&
        p.settings.gate.minCoverage.isNone) = true := by decide +kernel
  obtain ⟨o, hoptions, hprepared⟩ := exists_of_any hprepared
  obtain ⟨p, hp, hcheck⟩ := exists_of_any hprepared
  rw [Bool.and_eq_true, Bool.and_eq_true, beq_iff_eq, Bool.not_eq_true',
    Option.isNone_iff_eq_none] at hcheck
  obtain ⟨⟨hformat, hbaseline⟩, hcoverage⟩ := hcheck
  have hpath : (run (projectWith []) graveArguments).written.map (·.1) = some graveReport := by
    decide +kernel
  have hending : (run (projectWith []) graveArguments).ending.code? = some 2 := by
    decide +kernel
  obtain ⟨⟨path, text⟩, hwritten, rfl⟩ := Option.map_eq_some_iff.1 hpath
  obtain ⟨bytes, report, issues, hbytes, hreport, hissues, hverdict⟩ :=
    written_report_gives_verdict hoptions hp (string?_eq_some.1 hformat) hbaseline hcoverage
      hwritten
  obtain ⟨reasons, hreasons, -, hfails⟩ := hverdict 0 none
  have hcode := Ending.code?_eq_some.1 hending
  exact ⟨o, p, bytes, report, issues, reasons, hoptions, hp, hbytes, hreport, hissues, hreasons,
    hfails.2 hcode, hcode⟩

end CodeAudit.Program
