import CodeAudit.Program
import CodeAudit.Proofs.Baseline.RoundTrip

/-!
# The baseline of a run

A run writes its report before it reads the baseline. The baseline it compares with is therefore
the previous report only as long as the report is not written over it; and paths that are spelt
differently may lead to one file, so what counts is the place they lead to on the disk that the
writing leaves (`Overwrites`). Where the report replaces the baseline, a run compares its result
with itself, and nothing is ever new.
-/

namespace CodeAudit

/-- A path is found exactly if it leads somewhere. -/
theorem Disk.seek_eq_ok_true {d : Disk} {p : Path} : d.seek p = .ok true ↔ d.exists? p = true := by
  unfold seek exists?
  cases d.locate p with
  | ok found => simp [Except.toOption]
  | error r => cases r <;> simp [Except.toOption]

namespace Baseline

/-- What is loaded depends only on the file that is found. -/
theorem load_congr {stack : Stack} {d d' : Disk} {path : Path} (hcurrent : d'.current = d.current)
    (h : d'.fileAt path = d.fileAt path) : load stack d' path = load stack d path := by
  unfold load Disk.textBytes Disk.absolute
  rw [h, hcurrent]

end Baseline

namespace Program

open CommandLine (ScanOptions)

variable {stack : Stack} {disk : Disk} {w : World} {o : ScanOptions} {p : Prepared} {path : Path}
  {result : ScanResult} {d : Delivered} {s : ReportSettings}

/-! ## The stages before -/

/-- A path that a run finds leads somewhere. -/
theorem exists_of_isThere (h : isThere disk path = .ok true) : disk.exists? path = true :=
  Disk.seek_eq_ok_true.1 (mapError_eq_ok.1 h)

/-- A path that is settled as the baseline leads somewhere. -/
theorem exists_of_baselinePath {settings : Settings}
    (h : baselinePath disk settings = .ok (some path)) : disk.exists? path = true := by
  obtain ⟨found, -, h⟩ := bind_eq_ok.1 h
  split at h
  · exact absurd h (by simp [pure, Except.pure])
  obtain ⟨there, hthere, h⟩ := bind_eq_ok.1 h
  split at h
  next hexists =>
    obtain rfl := Option.some.inj (Except.ok.inj h)
    exact exists_of_isThere (hexists ▸ hthere)
  · exact absurd h (by simp)

/-- **A baseline that a run compares with was there when it started.** -/
theorem exists_of_prepare (h : prepare w o = .ok p) (hb : p.baseline = some path) :
    w.disk.exists? path = true := by
  obtain ⟨loaded, -, h⟩ := bind_eq_ok.1 h
  obtain ⟨-, -, h⟩ := bind_eq_ok.1 h
  obtain ⟨settings, -, h⟩ := bind_eq_ok.1 h
  obtain ⟨-, -, h⟩ := bind_eq_ok.1 h
  obtain ⟨baseline, hbaseline, h⟩ := bind_eq_ok.1 h
  obtain ⟨coverage, -, h⟩ := bind_eq_ok.1 h
  obtain ⟨plan, -, h⟩ := bind_eq_ok.1 h
  obtain rfl := Except.ok.inj h
  exact exists_of_baselinePath (hbaseline.trans (congrArg _ hb))

/-- A report that is written is written on the disk. -/
theorem writeText_of_writeReport {text : String} {after : Disk}
    (h : writeReport stack disk path text = .ok after) : disk.writeText path text = .ok after := by
  unfold writeReport at h
  split at h
  · exact absurd h (by simp)
  · exact mapError_eq_ok.1 h

/-- **What delivering a report does**: it leaves the disk alone, or writes the text to a path. -/
theorem deliver_eq_ok (h : deliver stack disk s result = .ok d) :
    ∃ text, reportText stack s.format result = .ok text ∧
      ((d.disk = disk ∧ d.written = none) ∨
        ∃ out, disk.writeText out text = .ok d.disk ∧ d.written = some (out, text)) := by
  obtain ⟨text, htext, hrest⟩ := bind_eq_ok.1 h
  refine ⟨text, htext, ?_⟩
  split at hrest
  · obtain rfl := Except.ok.inj hrest
    exact .inl ⟨rfl, rfl⟩
  next out =>
    obtain ⟨out, -, hwrite⟩ := bind_eq_ok.1 hrest
    obtain ⟨after, hafter, hd⟩ := bind_eq_ok.1 hwrite
    obtain rfl := Except.ok.inj hd
    exact .inr ⟨out, writeText_of_writeReport hafter, rfl⟩

/-! ## Which baseline is read -/

/-- **The report has replaced what is at a path.** -/
def Overwrites (d : Delivered) (path : Path) : Prop :=
  ∃ out text, d.written = some (out, text) ∧ d.disk.place? out = d.disk.place? path

/-- **Whatever the report has not replaced is read as it was.** -/
theorem load_of_not_overwrites (hexists : disk.exists? path = true)
    (h : deliver stack disk s result = .ok d) (hnot : ¬ Overwrites d path) :
    Baseline.load stack d.disk path = Baseline.load stack disk path := by
  obtain ⟨text, -, ⟨hdisk, -⟩ | ⟨out, hwrite, hwritten⟩⟩ := deliver_eq_ok h
  · rw [hdisk]
  obtain ⟨place, hchange, hout⟩ := Disk.writeText_eq_ok hwrite
  obtain ⟨other, c, hlocate⟩ := Disk.exists_locate hexists
  have hne : other ≠ place := by
    rintro rfl
    obtain ⟨c', hc', -⟩ := Disk.locate_of_change hchange hlocate
    refine hnot ⟨out, text, hwritten, ?_⟩
    rw [Disk.place?_of_locate hout, Disk.place?_of_locate hc']
  exact Baseline.load_congr hchange.current (Disk.fileAt_of_change hchange hlocate hne)

/-- **What the report has replaced** was a file, and now holds the report. -/
theorem fileAt_of_overwrites {out : Path} {text : String} (hexists : disk.exists? path = true)
    (h : deliver stack disk s result = .ok d) (hwritten : d.written = some (out, text))
    (hsame : d.disk.place? out = d.disk.place? path) :
    reportText stack s.format result = .ok text ∧ d.disk.current = disk.current ∧
      ∃ old, disk.fileAt path = .ok old ∧
        d.disk.fileAt path = .ok { old with bytes := Text.Utf8.encode text.toList } := by
  obtain ⟨text', htext, ⟨-, hnone⟩ | ⟨out', hwrite, hwritten'⟩⟩ := deliver_eq_ok h
  · rw [hnone] at hwritten
    exact absurd hwritten (by simp)
  rw [hwritten'] at hwritten
  obtain ⟨rfl, rfl⟩ := Prod.mk.inj (Option.some.inj hwritten)
  obtain ⟨place, hchange, hout⟩ := Disk.writeText_eq_ok hwrite
  obtain ⟨other, c, hlocate⟩ := Disk.exists_locate hexists
  obtain ⟨c', hc', hkind⟩ := Disk.locate_of_change hchange hlocate
  rw [Disk.place?_of_locate hout, Disk.place?_of_locate hc'] at hsame
  obtain rfl := Option.some.inj hsame
  -- both paths find the file that was written
  have hfile := Disk.get?_of_locate hout
  rw [Disk.get?_of_locate hc'] at hfile
  obtain rfl := Option.some.inj hfile
  cases c with
  | folder _ => simp [FileTree.isFolder] at hkind
  | file old =>
    have hold : disk.tree.fileAt? place = some old := by
      rw [FileTree.fileAt?, Disk.get?_of_locate hlocate]
      rfl
    refine ⟨htext, hchange.current, old, ?_, ?_⟩
    · rw [Disk.fileAt, hlocate]
    · rw [Disk.fileAt, hc', hold]
      rfl

/-! ## What follows from the baseline -/

/-- **What is judged of a result**, once the baseline is loaded. -/
theorem compareBaseline_of_load {known : List Fingerprint} (hb : p.baseline = some path)
    (hload : Baseline.load stack disk path = .ok known) (result : ScanResult) :
    compareBaseline stack disk p result =
      .ok (if p.settings.gate.onlyNewIssues then (Baseline.newIssues result known).1 else result,
        baselineLine result.issues.length (Baseline.newIssues result known).2
          (Baseline.newIssues result known).1.issues.length) := by
  unfold compareBaseline
  rw [hb]
  simp only [hload]
  rfl

/-- The conclusion of a run depends on the disk only through the issues that its baseline knows. -/
theorem conclude_congr {disk' : Disk} (hb : p.baseline = some path)
    (h : Baseline.Agree (Baseline.load stack disk' path) (Baseline.load stack disk path)) :
    conclude stack disk' p result = conclude stack disk p result := by
  have hcompare : compareBaseline stack disk' p result = compareBaseline stack disk p result := by
    generalize hload' : Baseline.load stack disk' path = known' at h
    generalize hload : Baseline.load stack disk path = known at h
    cases h with
    | error f =>
      unfold compareBaseline
      simp only [hb, hload', hload]
    | ok h =>
      rw [compareBaseline_of_load hb hload', compareBaseline_of_load hb hload,
        Baseline.newIssues_congr h]
  unfold conclude
  rw [hcompare]

/-- The text of a report whose format is JSON, whose numbers can all be written. -/
theorem reportText_json {format : Toml.Value} {text : String} (h : string? format = some "json")
    (htext : reportText stack format result = .ok text) :
    (Report.data result).isWritable = true ∧ text = Report.render .json result := by
  unfold reportText at htext
  rw [h] at htext
  replace htext : (if (Report.data result).isWritable then
    Except.ok (Report.render .json result) else .error _) = Except.ok text := htext
  split at htext
  next hwritable => exact ⟨hwritable, (Except.ok.inj htext).symm⟩
  · exact absurd htext (by simp)

/-- **Compared with a JSON report that has replaced the baseline, nothing is new.** -/
theorem compareBaseline_of_overwrites {text : String} {old : File} (hb : p.baseline = some path)
    (hformat : string? p.settings.report.format = some "json") (hresult : Report.Readable result)
    (htext : reportText stack p.settings.report.format result = .ok text)
    (hold : old.readable = true)
    (hfile : disk.fileAt path = .ok { old with bytes := Text.Utf8.encode text.toList }) :
    compareBaseline stack disk p result =
      .ok (if p.settings.gate.onlyNewIssues then { result with issues := [] } else result,
        baselineLine result.issues.length result.issues.length 0) := by
  obtain ⟨-, rfl⟩ := reportText_json hformat htext
  have hread := Baseline.read_encode_data stack hresult
  generalize Text.Utf8.encode (Report.render .json result).toList = bytes at hfile hread
  have hload := ((Baseline.load_of_fileAt hfile).trans (if_pos hold)).trans hread
  have hself := (Baseline.collects_distinct (result.issues.map (·.fingerprint))).newIssues_self
  rw [compareBaseline_of_load hb hload result, hself]
  rfl

/-- **A run that delivers its report ends as its conclusion says**, drawn from the disk after the
delivery. -/
theorem runScan_eq_conclude (hp : prepare w o = .ok p)
    (hscan : (Scan.run w.disk w.machine p.plan p.coverage).result = .ok result)
    (hd : deliver w.machine.stack w.disk p.settings.report result = .ok d) :
    (runScan w o).ending = (conclude w.machine.stack d.disk p result).1 ∧
      ∃ shown, (runScan w o).errors = shown ++ (conclude w.machine.stack d.disk p result).2 := by
  unfold runScan afterScan
  simp only [hp, hscan, hd]
  exact ⟨trivial, _, rfl⟩

/-! ## A project with an earlier report -/

/-- What is found in a computation that succeeds. -/
theorem exists_of_any {ε α : Type} {x : Except ε α} {check : α → Bool}
    (h : x.toOption.any check = true) : ∃ a, x = .ok a ∧ check a = true := by
  cases x with
  | error e => simp [Except.toOption] at h
  | ok a => exact ⟨a, rfl, h⟩

/-- The stages of a run that comes to the comparison, from a check of what they leave. -/
theorem exists_stages {w : World} {check : Prepared → ScanResult → Delivered → Bool}
    (h : ((prepare w o).toOption.any fun p =>
      (Scan.run w.disk w.machine p.plan p.coverage).result.toOption.any fun result =>
        (deliver w.machine.stack w.disk p.settings.report result).toOption.any
          (check p result)) = true) :
    ∃ p result d, prepare w o = .ok p ∧
      (Scan.run w.disk w.machine p.plan p.coverage).result = .ok result ∧
      deliver w.machine.stack w.disk p.settings.report result = .ok d ∧
      check p result d = true := by
  obtain ⟨p, hp, h⟩ := exists_of_any h
  obtain ⟨result, hscan, h⟩ := exists_of_any h
  obtain ⟨d, hd, hcheck⟩ := exists_of_any h
  exact ⟨p, result, d, hp, hscan, hd, hcheck⟩

/-- A project with one issue, and a file beside it. -/
def projectWith (bytes : List UInt8) : World where
  disk :=
    { tree := .folder [("p", .folder [("Dockerfile", .file ⟨[], true⟩)]),
        ("base.json", .file ⟨bytes, true⟩)]
      current := ⟨.slash, []⟩ }

/-- The project with the report of an earlier scan that found nothing. -/
def baselineWorld : World :=
  projectWith (Text.Utf8.encode (Report.render .json ⟨[], 0, none⟩).toList)

/-- The path of the earlier report. -/
def baselineFile : Path := ⟨.relative, ["base.json"]⟩

/-- The gate allows no new issue, and the report goes to a path. -/
def optionsTo (out : String) : ScanOptions where
  path := "p"
  format := some "json"
  out := some out
  baselineReport := some "base.json"
  gateNewOnly := true
  maxIssues := some 0

/-- Whether the gate lets a result through, none if it cannot judge it. -/
def passes? (p : Prepared) (result : ScanResult) : Option Bool :=
  match judge p result with
  | .ok () => some true
  | .error (.reported _) => some false
  | .error (.crash _) => none

/-- A run ends as the gate decides. -/
theorem conclude_ending {judged : ScanResult} {line : String} {passed : Bool}
    (hcompare : compareBaseline stack disk p result = .ok (judged, line))
    (hpasses : passes? p judged = some passed) :
    (conclude stack disk p result).1 = .exit (if passed then 0 else 2) := by
  unfold passes? at hpasses
  unfold conclude
  simp only [hcompare]
  split at hpasses
  next hjudge =>
    obtain rfl := Option.some.inj hpasses
    rw [hjudge]
    rfl
  next lines hjudge =>
    obtain rfl := Option.some.inj hpasses
    rw [hjudge]
    rfl
  · exact absurd hpasses (by simp)

/-- What is checked of a run in that project: it compares with the earlier report for new issues,
finds one issue, and the gate lets only a result without it through. -/
def comparesOneIssue (p : Prepared) (result : ScanResult) : Bool :=
  p.baseline == some baselineFile && p.settings.gate.onlyNewIssues &&
    string? p.settings.report.format == some "json" &&
    result.issues.length == 1 && result.issues.all (fun i => i.line == 1 && i.column == 1) &&
    result.filesScanned == 1 && result.coverage.isNone && passes? p result == some false &&
    passes? p { result with issues := [] } == some true

/-- The parts of that check. -/
theorem comparesOneIssue_iff : comparesOneIssue p result = true ↔
    p.baseline = some baselineFile ∧ p.settings.gate.onlyNewIssues = true ∧
      string? p.settings.report.format = some "json" ∧
      result.issues.length = 1 ∧ (∀ i ∈ result.issues, i.line = 1 ∧ i.column = 1) ∧
      result.filesScanned = 1 ∧ result.coverage = none ∧ passes? p result = some false ∧
      passes? p { result with issues := [] } = some true := by
  simp only [comparesOneIssue, Bool.and_eq_true, beq_iff_eq, Option.isNone_iff_eq_none,
    List.all_eq_true, and_assoc]

/-- The file beside the project is found. -/
theorem fileAt_projectWith (bytes : List UInt8) :
    (projectWith bytes).disk.fileAt baselineFile = .ok ⟨bytes, true⟩ := rfl

/-- A result with at most one issue, at the start of a file, can be read back. -/
theorem readable_of_start (hissues : result.issues.length ≤ 1)
    (hstart : ∀ i ∈ result.issues, i.line = 1 ∧ i.column = 1)
    (hfiles : result.filesScanned.natAbs ≤ 1) (hcoverage : result.coverage = none) :
    Report.Readable result := by
  refine ⟨Json.fitsReader_of_lt (by omega), Json.fitsReader_of_lt (by omega), ?_, ?_, ?_⟩
  · intro i hi
    rw [(hstart i hi).1, (hstart i hi).2]
    exact ⟨Json.fitsReader_of_lt (by decide), Json.fitsReader_of_lt (by decide)⟩
  · simp [hcoverage]
  · simp [hcoverage]

/-- The earlier report knows no issue. -/
theorem load_baselineWorld :
    Baseline.load baselineWorld.machine.stack baselineWorld.disk baselineFile = .ok [] := by
  rw [baselineWorld, Baseline.load_of_fileAt (fileAt_projectWith _), if_pos rfl,
    Baseline.read_encode_data _ (readable_of_start (by decide) (by simp) (by decide) rfl)]
  rfl

/-- **Compared with the earlier report, the issue is new** and the run fails. -/
theorem conclude_baselineWorld (h : comparesOneIssue p result = true) :
    (conclude baselineWorld.machine.stack baselineWorld.disk p result).1 = .exit 2 := by
  obtain ⟨hb, hnew, -, -, -, -, -, hfails, -⟩ := comparesOneIssue_iff.1 h
  have hall : (Baseline.newIssues result []).1 = result := by
    have hnone : result.issues.filter (fun i => !Baseline.knows [] i.fingerprint) =
        result.issues := List.filter_eq_self.2 fun _ _ => rfl
    unfold Baseline.newIssues
    rw [hnone]
  have hcompare := compareBaseline_of_load hb load_baselineWorld result
  rw [hnew, if_pos rfl, hall] at hcompare
  exact conclude_ending hcompare hfails

/-! ## The comparison -/

/-- **A run compares with the previous report exactly if its own does not replace it**, or knows
the same issues. A run that comes to the comparison ends as the baseline on the disk after the
delivery says, and as the baseline it started with says if the two agree. They do unless the report
was written to the baseline's place. If it was, the baseline is the new report; and with the JSON
report of a result whose numbers can be read back, every issue is known and the gate for new issues
sees none. -/
theorem compares_with_previous_unless_overwritten (hp : prepare w o = .ok p)
    (hb : p.baseline = some path)
    (hscan : (Scan.run w.disk w.machine p.plan p.coverage).result = .ok result)
    (hd : deliver w.machine.stack w.disk p.settings.report result = .ok d) :
    ((runScan w o).ending = (conclude w.machine.stack d.disk p result).1 ∧
      ∃ shown, (runScan w o).errors = shown ++ (conclude w.machine.stack d.disk p result).2) ∧
    (Baseline.Agree (Baseline.load w.machine.stack d.disk path)
        (Baseline.load w.machine.stack w.disk path) →
      conclude w.machine.stack d.disk p result = conclude w.machine.stack w.disk p result) ∧
    (¬ Overwrites d path → Baseline.load w.machine.stack d.disk path =
      Baseline.load w.machine.stack w.disk path) ∧
    ∀ out text, d.written = some (out, text) → d.disk.place? out = d.disk.place? path →
      ∃ old, w.disk.fileAt path = .ok old ∧
        (Baseline.Agree (Baseline.load w.machine.stack d.disk path)
            (Baseline.load w.machine.stack w.disk path) ↔
          (old.readable = true → Baseline.Agree
            (Baseline.read w.machine.stack (Text.Utf8.encode text.toList))
            (Baseline.read w.machine.stack old.bytes))) ∧
        (old.readable = true → p.settings.report.format = .str "json" →
          Report.Readable result → compareBaseline w.machine.stack d.disk p result =
            .ok (if p.settings.gate.onlyNewIssues then { result with issues := [] } else result,
              baselineLine result.issues.length result.issues.length 0)) := by
  have hexists := exists_of_prepare hp hb
  refine ⟨runScan_eq_conclude hp hscan hd, conclude_congr hb,
    load_of_not_overwrites hexists hd, ?_⟩
  intro out text hwritten hsame
  obtain ⟨htext, hcurrent, old, hold, hnew⟩ := fileAt_of_overwrites hexists hd hwritten hsame
  refine ⟨old, hold, ?_, ?_⟩
  · have habsolute : d.disk.absolute path = w.disk.absolute path :=
      congrArg (Path.resolve · path) hcurrent
    rw [Baseline.load_of_fileAt hold, Baseline.load_of_fileAt hnew, habsolute]
    by_cases hreadable : old.readable = true
    · rw [if_pos hreadable, if_pos hreadable]
      exact ⟨fun h _ => h, fun h => h hreadable⟩
    · rw [if_neg hreadable, if_neg hreadable]
      exact ⟨fun _ h => absurd h hreadable, fun _ => .refl _⟩
  · intro hreadable hformat hresult
    exact compareBaseline_of_overwrites hb (by rw [hformat]; rfl) hresult htext hreadable hnew

/-- With the report in a folder of its own, the earlier report counts and the issue fails the
run. -/
theorem new_issue_fails_with_previous_baseline :
    ∃ p result d, prepare baselineWorld (optionsTo "reports/new.json") = .ok p ∧
      p.baseline = some baselineFile ∧
      (Scan.run baselineWorld.disk baselineWorld.machine p.plan p.coverage).result = .ok result ∧
      deliver baselineWorld.machine.stack baselineWorld.disk p.settings.report result = .ok d ∧
      ¬ Overwrites d baselineFile ∧
      (runScan baselineWorld (optionsTo "reports/new.json")).ending = .exit 2 := by
  obtain ⟨p, result, d, hp, hscan, hd, hcheck⟩ := @exists_stages (optionsTo "reports/new.json")
    baselineWorld (fun p result d => comparesOneIssue p result && d.written.any fun out =>
      d.disk.place? out.1 != d.disk.place? baselineFile) (by decide +kernel)
  rw [Bool.and_eq_true] at hcheck
  obtain ⟨hcheck, hplaces⟩ := hcheck
  obtain ⟨hb, -⟩ := comparesOneIssue_iff.1 hcheck
  have hnot : ¬ Overwrites d baselineFile := by
    rintro ⟨out, text, hwritten, hsame⟩
    simp [hwritten, hsame] at hplaces
  obtain ⟨⟨hending, -⟩, hconclude, hprevious, -⟩ :=
    compares_with_previous_unless_overwritten hp hb hscan hd
  have hagree : Baseline.Agree (Baseline.load baselineWorld.machine.stack d.disk baselineFile)
      (Baseline.load baselineWorld.machine.stack baselineWorld.disk baselineFile) := by
    rw [hprevious hnot]
    exact .refl _
  refine ⟨p, result, d, hp, hb, hscan, hd, hnot, ?_⟩
  rw [hending, hconclude hagree]
  exact conclude_baselineWorld hcheck

/-- **Written over the baseline, the report hides its own issues**: the run passes the gate, though
compared with the report it started from it fails. -/
theorem overwritten_baseline_hides_new_issue :
    ∃ p result d, prepare baselineWorld (optionsTo "base.json") = .ok p ∧
      p.baseline = some baselineFile ∧
      (Scan.run baselineWorld.disk baselineWorld.machine p.plan p.coverage).result = .ok result ∧
      deliver baselineWorld.machine.stack baselineWorld.disk p.settings.report result = .ok d ∧
      ¬ Baseline.Agree (Baseline.load baselineWorld.machine.stack d.disk baselineFile)
        (Baseline.load baselineWorld.machine.stack baselineWorld.disk baselineFile) ∧
      (runScan baselineWorld (optionsTo "base.json")).ending = .exit 0 ∧
      (conclude baselineWorld.machine.stack baselineWorld.disk p result).1 = .exit 2 := by
  obtain ⟨p, result, d, hp, hscan, hd, hcheck⟩ := @exists_stages (optionsTo "base.json")
    baselineWorld (fun p result d => comparesOneIssue p result && d.written.any fun out =>
      d.disk.place? out.1 == d.disk.place? baselineFile) (by decide +kernel)
  rw [Bool.and_eq_true] at hcheck
  obtain ⟨hcheck, hplaces⟩ := hcheck
  obtain ⟨hb, hnew, hformat, hone, hstart, hfiles, hcoverage, -, hpasses⟩ :=
    comparesOneIssue_iff.1 hcheck
  obtain ⟨⟨out, text⟩, hwritten, hsame⟩ := (Option.any_eq_true _ _).1 hplaces
  obtain ⟨htext, -, old, hold, hafter⟩ :=
    fileAt_of_overwrites (exists_of_prepare hp hb) hd hwritten (beq_iff_eq.1 hsame)
  have hreadable : old.readable = true := by
    rw [baselineWorld, fileAt_projectWith] at hold
    rw [← Except.ok.inj hold]
  have hcompare := compareBaseline_of_overwrites hb hformat
    (readable_of_start (by omega) hstart (by omega) hcoverage) htext hreadable hafter
  rw [hnew, if_pos rfl] at hcompare
  have hpassed := conclude_ending hcompare hpasses
  have hfailed := conclude_baselineWorld hcheck
  refine ⟨p, result, d, hp, hb, hscan, hd, ?_, ?_, hfailed⟩
  · intro hload
    rw [conclude_congr hb hload, hfailed] at hpassed
    exact absurd (Ending.exit.inj hpassed) (by decide)
  · rw [(runScan_eq_conclude hp hscan hd).1]
    exact hpassed

end Program

end CodeAudit
