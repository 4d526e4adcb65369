import CodeAudit.Proofs.Program.Stages
import CodeAudit.Proofs.Scan.Counting

/-!
# Rules and their severities

Every rule of the built-in checks has one title and one severity, wherever it is reported. So an
issue of theirs is all told by its place, its rule and its message, and none is lost when issues
are put together. The external scanner only gives severities that there are. What counts and
compares severities therefore works on every result of a scan (`severities_closed`): the four
counts of a report make up its total, and the gate can judge wherever it can tell of the limits.
-/

namespace CodeAudit

/-! ## Issues of the built-in checks -/

/-- A rule is told by its name. -/
theorem Catalogue.eq_of_id {r r' : RuleInfo} (hr : r ∈ Catalogue.all) (hr' : r' ∈ Catalogue.all)
    (h : r.id = r'.id) : r = r' := by
  have hnodup : (Catalogue.all.map (·.id)).Nodup := by decide
  exact List.inj_on_of_nodup_map hnodup hr hr' h

namespace Scan

/-- An issue that the built-in checks report, under any path: what the checks of a language find in
a source, or that a file cannot be read. -/
def IsOwn (i : Issue) : Prop :=
  (∃ (a : Checks.Analyser) (f : SourceFile), { i with filePath := f.path } ∈ a.check f) ∨
    ∃ t : Target, i = unreadable t

variable {disk : Disk} {machine : External.Machine} {p : Plan}
  {coverage : Option Coverage} {tree : FileTree} {engine : Engine} {r : ScanResult} {t : Target}
  {i j : Issue}

/-- Such an issue is of a rule of the catalogue, and its place is given in numbers. -/
theorem IsOwn.exists_rule (h : IsOwn i) : ∃ r ∈ Catalogue.all, ∃ line column : Int,
    i = r.issue i.filePath (.number line) (.number column) i.message := by
  rcases h with ⟨a, f, h⟩ | ⟨t, rfl⟩
  · obtain ⟨found, hfound⟩ := Checks.placed_check f a
    have hself : a.check f = found.map (·.issue f.path) := hfound f.path
    rw [hself] at h
    obtain ⟨x, -, hx⟩ := List.mem_map.1 h
    rw [Checks.Finding.issue, RuleInfo.issue] at hx
    refine ⟨x.rule, List.mem_append_left _ x.mem_rules, x.line, x.column, ?_⟩
    obtain ⟨hid, htitle, hseverity, hmessage, -, hline, hcolumn⟩ := Issue.mk.inj hx
    cases i
    simp only [RuleInfo.issue, hid, htitle, hseverity, hline, hcolumn]
  · exact ⟨Catalogue.unreadable, by decide, 1, 1, rfl⟩

/-- **A rule has one title and one severity.** -/
theorem IsOwn.title_severity (hi : IsOwn i) (hj : IsOwn j) (h : i.ruleId = j.ruleId) :
    i.title = j.title ∧ i.severity = j.severity := by
  obtain ⟨r, hr, line, column, hir⟩ := hi.exists_rule
  obtain ⟨r', hr', line', column', hjr⟩ := hj.exists_rule
  rw [hir, hjr] at h
  obtain rfl := Catalogue.eq_of_id hr hr' h
  rw [hir, hjr]
  exact ⟨rfl, rfl⟩

/-- **Issues of the built-in checks that pass for the same are equal.** -/
theorem IsOwn.eq_of_same (hi : IsOwn i) (hj : IsOwn j)
    (h : i.fingerprint.same j.fingerprint = true) : i = j := by
  obtain ⟨hpath, hrule, hline, hcolumn, hmessage⟩ := Fingerprint.same_iff.1 h
  obtain ⟨htitle, hseverity⟩ := hi.title_severity hj hrule
  obtain ⟨r, -, line, column, hir⟩ := hi.exists_rule
  obtain ⟨r', -, line', column', hjr⟩ := hj.exists_rule
  have hlines : i.line = j.line := by
    rw [hir, hjr] at hline ⊢
    exact congrArg Coord.number hline
  have hcolumns : i.column = j.column := by
    rw [hir, hjr] at hcolumn ⊢
    exact congrArg Coord.number hcolumn
  cases i
  cases j
  exact Issue.mk.injEq .. ▸ ⟨hrule, htitle, hseverity, hmessage, hpath, hlines, hcolumns⟩

/-- What a scan keeps of the issues in a file are issues of the built-in checks. -/
theorem isOwn_of_mem_targetIssues (h : i ∈ targetIssues p t) : IsOwn i := by
  cases hread : t.file.readable with
  | false =>
    rw [targetIssues_of_unreadable p hread] at h
    exact .inr ⟨t, List.mem_singleton.1 h⟩
  | true =>
    rw [targetIssues_of_readable p hread] at h
    obtain ⟨found, hfound, rfl⟩ := exists_of_mem_kept h
    refine .inl ⟨.ofSuffix (SourceFile.of t.path (textOf t.file.bytes)).suffix,
      SourceFile.of t.path (textOf t.file.bytes), ?_⟩
    obtain ⟨findings, hfindings⟩ :=
      Checks.exists_findings (SourceFile.of t.path (textOf t.file.bytes))
    have hself := hfindings (SourceFile.of t.path (textOf t.file.bytes)).path
    replace hself : Checks.check (SourceFile.of t.path (textOf t.file.bytes)) = _ := hself
    have hpath : found.filePath = (SourceFile.of t.path (textOf t.file.bytes)).path := by
      rw [hself] at hfound
      obtain ⟨x, -, rfl⟩ := List.mem_map.1 hfound
      rfl
    show { found with filePath := _ } ∈ Checks.check (SourceFile.of t.path (textOf t.file.bytes))
    rw [← hpath]
    exact hfound

/-- **Nothing that the built-in checks find is lost** when the issues of a scan are put together,
with or without those of the external scanner. -/
theorem mem_issues_of_mem_targetIssues (hroot : disk.get? (disk.absolute p.root) = some tree)
    (hengine : Engine.ofName? p.engine = some engine) (hruns : engine.runsChecks = true)
    (hr : (runWithin disk machine p coverage).result = .ok r)
    (ht : t ∈ targets p.choice (disk.absolute p.root) tree) (hi : i ∈ targetIssues p t) :
    i ∈ r.issues := by
  have hissues := issues_of_result hroot hengine (run_of_runWithin hr)
  rw [if_pos hruns] at hissues
  have hfound := List.mem_flatMap.2 ⟨t, ht, hi⟩
  obtain ⟨k, hk, hsame⟩ :=
    exists_same_of_mem (List.mem_append_left (added disk machine p tree) hfound)
  have hmarked : isMarked k = isMarked i :=
    respectsSame_rule (fun rule => Security.externalMark.isPrefixOf rule.toList) hsame
  rw [isMarked_of_mem_targetIssues i hfound] at hmarked
  have hkown : IsOwn k := by
    rcases List.mem_append.1 (mem_of_mem_dedupe hk) with hk | hk
    · obtain ⟨t', -, hk⟩ := List.mem_flatMap.1 hk
      exact isOwn_of_mem_targetIssues hk
    · rw [isMarked_of_mem_added k hk] at hmarked
      exact absurd hmarked (by decide)
  rw [← hkown.eq_of_same (isOwn_of_mem_targetIssues hi) hsame, hissues]
  exact hk

/-! ## What counts on severities -/

/-- A severity with a rank is one of four. -/
theorem severity_mem_of_rank? {s : Severity} (h : s.rank?.isSome = true) :
    s ∈ [Severity.low, .medium, .high, .critical] := by
  cases s with
  | low | medium | high | critical => decide
  | other name => exact absurd h (by simp [Severity.rank?])

/-- The counts of the four severities make up the number of issues. -/
theorem length_eq_countSeverity {issues : List Issue}
    (h : ∀ i ∈ issues, i.severity ∈ [Severity.low, .medium, .high, .critical]) :
    issues.length = countSeverity .low issues + countSeverity .medium issues +
      countSeverity .high issues + countSeverity .critical issues := by
  induction issues with
  | nil => rfl
  | cons i issues ih =>
    have hrest := ih fun j hj => h j (List.mem_cons_of_mem i hj)
    have hone := h i List.mem_cons_self
    unfold countSeverity at hrest ⊢
    simp only [List.length_cons, List.countP_cons, List.mem_cons, List.not_mem_nil, or_false]
      at hone ⊢
    rcases hone with hs | hs | hs | hs <;> simp [hs] <;> omega

/-- **Severities are closed.** Every issue of a scan has one of the four. A rule of the built-in
checks has one title and severity, so that their issues are equal where they pass for the same and
all that they find in a file of the scan is in the result. The four counts of the report make up
its total, and if the severity to fail on is sound, the gate judges the result by all limits that it
can tell of and by no others. -/
theorem severities_closed (hr : (runWithin disk machine p coverage).result = .ok r) :
    (∀ i ∈ r.issues, i.severity ∈ [Severity.low, .medium, .high, .critical]) ∧
      (∀ i j, IsOwn i → IsOwn j → i.ruleId = j.ruleId →
        i.title = j.title ∧ i.severity = j.severity) ∧
      (∀ i j, IsOwn i → IsOwn j → i.fingerprint.same j.fingerprint = true → i = j) ∧
      (∀ tree engine, disk.get? (disk.absolute p.root) = some tree →
        Engine.ofName? p.engine = some engine → engine.runsChecks = true →
        ∀ t ∈ targets p.choice (disk.absolute p.root) tree, ∀ i ∈ targetIssues p t,
          IsOwn i ∧ i ∈ r.issues) ∧
      (∃ low medium high critical : Nat,
        (Report.data r).get? "severity_counts" = some (.obj [("low", .int low),
          ("medium", .int medium), ("high", .int high), ("critical", .int critical)]) ∧
        (Report.data r).get? "issues_total" =
          some (.int (low + medium + high + critical : Nat))) ∧
      ∀ (limits : Limits) (failOn : Option String),
        Settings.severityProblems (failOn.map .str) = .ok [] →
          ((∃ reasons, Gate.reasons { limits with failOn := failOn.map .ofName } r =
            .ok reasons) ↔ Gate.Tellable limits r) := by
  have hranks := rank?_of_result hr
  have hfour : ∀ i ∈ r.issues, i.severity ∈ [Severity.low, .medium, .high, .critical] :=
    fun i hi => severity_mem_of_rank? (hranks i hi)
  refine ⟨hfour, fun i j hi hj => hi.title_severity hj, fun i j hi hj => hi.eq_of_same hj, ?_, ?_,
    ?_⟩
  · intro tree engine hroot hengine hruns t ht i hi
    exact ⟨isOwn_of_mem_targetIssues hi,
      mem_issues_of_mem_targetIssues hroot hengine hruns hr ht hi⟩
  · refine ⟨_, _, _, _, rfl, ?_⟩
    rw [← length_eq_countSeverity hfour]
    rfl
  · intro limits failOn hsound
    have hfail : ∀ s, failOn.map Severity.ofName = some s → s.rank?.isSome = true := by
      intro s hs
      obtain ⟨name, rfl, rfl⟩ := Option.map_eq_some_iff.1 hs
      exact Program.rank?_of_severityProblems hsound
    rw [Gate.exists_reasons_iff hfail hranks]
    -- neither the counts nor the coverage ask for the severity
    exact ⟨fun h => ⟨h.counts, h.coverage⟩, fun h => ⟨h.counts, h.coverage⟩⟩

/-- The limit on what can be written is above one. -/
theorem one_lt_limit : 1 < Nat.pow 10 Number.maxDigits := by
  have hpow : ∀ k, k ≠ 0 → 1 < Nat.pow 10 k := fun k hk => Nat.one_lt_pow hk (by decide)
  exact hpow _ (by decide)

/-- A limit of minus one on the number of issues can be told of. -/
theorem tellable_negative : Gate.Tellable { maxIssues := some (.whole (-1)) } r where
  counts := by
    have hone : Number.isWritable (-1) = true := decide_eq_true one_lt_limit
    simp [Gate.bounds, Number.Quantity.isWritable, hone]
  coverage := by simp

/-- A scan with both engines reports what each of them finds, and a gate that fails on grave issues
can judge it. -/
theorem severities_closed_in_bucket :
    ∃ r, (runWithin bucketDisk bucketMachine (bucketPlan []) none).result = .ok r ∧
      r.issues = [containerIssue, bucketIssue] ∧
      (∀ i ∈ r.issues, i.severity ∈ [Severity.low, .medium, .high, .critical]) ∧
      ∃ reasons, Gate.reasons { failOn := some .high, maxIssues := some (.whole (-1)) } r =
        .ok reasons := by
  obtain ⟨r, hr, hissues, -⟩ := @exists_result_bucket [] (by decide)
  obtain ⟨hfour, -, -, -, -, hgate⟩ := severities_closed hr
  obtain ⟨reasons, hreasons⟩ :=
    (hgate { maxIssues := some (.whole (-1)) } (some "high") rfl).2 tellable_negative
  exact ⟨r, hr, hissues, hfour, reasons, hreasons⟩

/-- A number one digit too long to be written. -/
def tooLongNumber : Int := Nat.pow 10 Number.maxDigits

/-- **A limit that is exceeded and cannot be written** keeps the gate from judging the same scan. -/
theorem unwritable_limit_not_judged :
    ∃ r, (runWithin bucketDisk bucketMachine (bucketPlan []) none).result = .ok r ∧
      Settings.severityProblems none = .ok [] ∧
      ∀ reasons, Gate.reasons { maxIssues := some (.whole (-tooLongNumber)) } r ≠ .ok reasons := by
  obtain ⟨r, hr, -, -⟩ := @exists_result_bucket [] (by decide)
  refine ⟨r, hr, rfl, fun reasons hreasons => ?_⟩
  have htell := (Gate.exists_reasons_iff (by simp) (rank?_of_result hr)).1 ⟨reasons, hreasons⟩
  have hexceeds : Gate.exceeds r.issues.length (.whole (-tooLongNumber)) = true := by
    rw [Gate.exceeds_iff_of_whole? rfl, tooLongNumber]
    have hlimit := one_lt_limit
    generalize Nat.pow 10 Number.maxDigits = n at hlimit
    omega
  have hwritable := htell.counts _ List.mem_cons_self _ rfl hexceeds
  rw [Number.Quantity.isWritable, Number.isWritable, decide_eq_true_iff, tooLongNumber] at hwritable
  generalize Nat.pow 10 Number.maxDigits = n at hwritable
  omega

end Scan

end CodeAudit
