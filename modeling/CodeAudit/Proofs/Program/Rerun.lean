import CodeAudit.Proofs.Program.Stages
import CodeAudit.Proofs.Scan.Replacing
import CodeAudit.Proofs.Settings.Keeping

/-!
# Running twice

The report of a run is a file like any other, and the next run may find it: as one of the files
that it scans, or in the way of its configuration file. A second run with the same command line,
without gate or configuration, writes the same report exactly if neither matters
(`rerun_repeats_report_iff`): the configuration file is what it was (`Settings.Keeps`), and the
report counts for the scan as what was at its place before (`Scan.Unnoticed`).

A report named `*.json` in the folder is counted by the second run. So the documented place of the
report is one where the second report differs from the first (`rerun_counts_documentedReport`).
-/

namespace CodeAudit.Program

open CommandLine (ScanOptions)

/-! ## A report without configuration -/

/-- The command line that writes a report of a folder as JSON. -/
def jsonReport (dir out : String) : ScanOptions where
  path := dir
  format := some "json"
  out := some out

/-- The plan of a scan without configuration. -/
def defaultPlan (dir : String) : Scan.Plan where
  root := Path.ofString dir
  choice :=
    { excludes := defaultExcludes, extensions := defaultExtensions
      filenames := defaultFilenames, maxFileSizeKb := 1024, skipGenerated := true }
  external := { excludes := defaultExcludes.map .str }

/-- What is settled before such a scan. -/
def defaultPrepared (dir out : String) : Prepared where
  settings := { report := { format := .str "json", out := Settings.override none (some out) } }
  baseline := none
  coverage := none
  plan := defaultPlan dir

variable {w : World} {stack : Stack} {disk : Disk} {dir out : String} {path : Path} {text : String}

/-- A preparation without configuration needs something to scan only. -/
theorem prepare_jsonReport (hconfig : Settings.load w.machine.stack w.disk none = .ok {})
    (hthere : w.disk.exists? (Path.ofString dir) = true) :
    prepare w (jsonReport dir out) = .ok (defaultPrepared dir out) :=
  prepare_eq_ok.2 ⟨{}, hconfig, hthere, rfl, rfl, rfl, rfl, rfl⟩

variable {result : ScanResult} {d : Delivered}

/-- A path that is given on the command line is where the report goes. -/
theorem out_defaultPrepared (hout : out ≠ "") :
    (defaultPrepared dir out).settings.report.out = some (.str out) := by
  simp [defaultPrepared, Settings.override, Settings.given?, Option.filter, hout]

/-- **What it takes to write a report as JSON**: a path, numbers that can be written, and a place
for the file. -/
theorem deliver_jsonReport_iff :
    (∃ d, deliver stack disk (defaultPrepared dir out).settings.report result = .ok d ∧
      d.written = some (path, text)) ↔
    out ≠ "" ∧ path = Path.ofString out ∧ (Report.data result).isWritable = true ∧
      text = Report.render .json result ∧
      ∃ after, writeReport stack disk path text = .ok after := by
  constructor
  · rintro ⟨d, hd, hwritten⟩
    obtain ⟨text', htext, hrest⟩ := bind_eq_ok.1 hd
    obtain ⟨hwritable, rfl⟩ := reportText_json rfl htext
    by_cases hout : out = ""
    · subst hout
      obtain rfl := Except.ok.inj hrest
      exact absurd hwritten (by simp)
    · rw [out_defaultPrepared hout] at hrest
      obtain ⟨path', hpath, hrest⟩ := bind_eq_ok.1 hrest
      obtain ⟨after, hafter, hrest⟩ := bind_eq_ok.1 hrest
      obtain rfl := Except.ok.inj hpath
      obtain rfl := Except.ok.inj hrest
      obtain ⟨rfl, rfl⟩ := Prod.mk.inj (Option.some.inj hwritten)
      exact ⟨hout, rfl, hwritable, rfl, after, hafter⟩
  · rintro ⟨hout, rfl, hwritable, rfl, after, hafter⟩
    have htext : reportText stack (.str "json") result = .ok (Report.render .json result) := by
      have hformat : (string? (.str "json")).bind Report.Format.ofName? = some .json := by decide
      have hjson : Report.isWritable .json result = true := hwritable
      unfold reportText
      simp only [hformat, hjson, if_true]
    refine ⟨⟨after, "", some (Path.ofString out, Report.render .json result)⟩, ?_, rfl⟩
    refine bind_eq_ok.2 ⟨_, htext, ?_⟩
    rw [out_defaultPrepared hout]
    exact bind_eq_ok.2 ⟨_, rfl, bind_eq_ok.2 ⟨after, hafter, rfl⟩⟩

/-- What a run writes is what it delivers. -/
theorem written_of_deliver {o : ScanOptions} {p : Prepared} (hp : prepare w o = .ok p)
    (hscan : (Scan.runWithin w.disk w.machine p.plan p.coverage).result = .ok result)
    (hd : deliver w.machine.stack w.disk p.settings.report result = .ok d) :
    (runScanWithin w o).written = d.written := by
  unfold runScanWithin
  simp only [hp]
  unfold afterScan
  simp only [hscan, hd]

/-- **When a run without configuration writes a report.** -/
theorem written_jsonReport_iff (hconfig : Settings.load w.machine.stack w.disk none = .ok {})
    (hthere : w.disk.exists? (Path.ofString dir) = true) :
    (runScanWithin w (jsonReport dir out)).written = some (path, text) ↔
      out ≠ "" ∧ path = Path.ofString out ∧ ∃ result,
        (Scan.runWithin w.disk w.machine (defaultPlan dir) none).result = .ok result ∧
        (Report.data result).isWritable = true ∧ text = Report.render .json result ∧
        ∃ after, writeReport w.machine.stack w.disk path text = .ok after := by
  have hp : prepare w (jsonReport dir out) = .ok (defaultPrepared dir out) :=
    prepare_jsonReport hconfig hthere
  constructor
  · intro h
    obtain ⟨result, d, hscan, hd, hwritten, -⟩ := exists_of_written hp h
    obtain ⟨hout, hpath, hwritable, htext, hafter⟩ := deliver_jsonReport_iff.1 ⟨d, hd, hwritten⟩
    exact ⟨hout, hpath, result, hscan, hwritable, htext, hafter⟩
  · rintro ⟨hout, hpath, result, hscan, hwritable, htext, hafter⟩
    obtain ⟨d, hd, hwritten⟩ := deliver_jsonReport_iff.2 ⟨hout, hpath, hwritable, htext, hafter⟩
    exact (written_of_deliver hp hscan hd).trans hwritten

/-- A run that writes a report has written it to the disk that it leaves. -/
theorem writeText_of_written {o : ScanOptions} {p : Prepared} (hp : prepare w o = .ok p)
    (h : (runScanWithin w o).written = some (path, text)) :
    w.disk.writeText path text = .ok (runScanWithin w o).disk := by
  obtain ⟨result, d, -, hd, hwritten, hdisk, -⟩ := exists_of_written hp h
  obtain ⟨text', -, ⟨-, hnone⟩ | ⟨out, hwrite, hsome⟩⟩ := deliver_eq_ok hd
  · exact absurd (hnone.symm.trans hwritten) (by simp)
  · obtain ⟨rfl, rfl⟩ := Prod.mk.inj (Option.some.inj (hsome.symm.trans hwritten))
    rw [hdisk]
    exact hwrite

/-- A run that writes a report was prepared. -/
theorem exists_prepared_of_written {o : ScanOptions}
    (h : (runScanWithin w o).written = some (path, text)) : ∃ p, prepare w o = .ok p := by
  cases hp : prepare w o with
  | ok p => exact ⟨p, rfl⟩
  | error f =>
    unfold runScanWithin at h
    simp only [hp] at h
    exact absurd h (by simp)

/-- A report as JSON starts with a brace. -/
theorem toList_render_json (result : ScanResult) :
    ∃ rest, (Report.render .json result).toList = '\x7b' :: rest := by
  obtain ⟨m, rest, hdata⟩ : ∃ m rest, Report.data result = .obj (m :: rest) := ⟨_, _, rfl⟩
  rw [Report.render, Json.indented, hdata, Json.indentedAt]
  simp only [String.toList_append]
  exact ⟨_, rfl⟩

/-- Results with one report are the same, where there is no coverage. -/
theorem eq_of_render_eq {disk disk' : Disk} {machine : External.Machine}
    {plan : Scan.Plan} {r r' : ScanResult}
    (hengine : Scan.Engine.ofName? plan.engine = some .builtIn)
    (hr : (Scan.runWithin disk machine plan none).result = .ok r)
    (hr' : (Scan.runWithin disk' machine plan none).result = .ok r')
    (hwritable : (Report.data r).isWritable = true)
    (hwritable' : (Report.data r').isWritable = true)
    (h : Report.render .json r = Report.render .json r') : r = r' := by
  have hcoverage : ∀ {disk r},
      (Scan.runWithin disk machine plan none).result = .ok r → r.coverage = none := by
    intro disk r hr
    obtain ⟨tree, hroot⟩ := Scan.exists_root_of_result hr
    rw [(Scan.of_result_runWithin hroot hengine hr).2]
  obtain ⟨hissues, hfiles⟩ := Report.eq_of_report_eq hwritable (Scan.rank?_of_result hr) hwritable'
    (Scan.rank?_of_result hr') h
  cases r with
  | mk issues files coverage =>
    cases r' with
    | mk issues' files' coverage' =>
      obtain rfl : coverage = none := hcoverage hr
      obtain rfl : coverage' = none := hcoverage hr'
      exact congrArg₂ (ScanResult.mk · · none) hissues hfiles

/-- What is to be scanned is still there after a report was written. -/
theorem exists_after {after : Disk} (hthere : disk.exists? (Path.ofString dir) = true)
    (hwrite : disk.writeText path text = .ok after) :
    after.exists? (Path.ofString dir) = true := by
  obtain ⟨place, c, hl⟩ := Disk.exists_locate hthere
  obtain ⟨_, hchange, _⟩ := Disk.writeText_eq_ok hwrite
  obtain ⟨c', hl', -⟩ := Disk.locate_of_change hchange hl
  rw [Disk.exists?, hl']
  rfl

/-- The plan of a scan without configuration is one of the built-in checks. -/
theorem engine_defaultPlan (dir : String) :
    Scan.Engine.ofName? (defaultPlan dir).engine = some .builtIn := by
  show Scan.Engine.ofName? "internal" = _
  decide

/-- What a run without configuration that writes a report has found and done. -/
theorem exists_of_jsonReport (hconfig : Settings.load w.machine.stack w.disk none = .ok {})
    (h : (runScanWithin w (jsonReport dir out)).written = some (path, text)) :
    w.disk.exists? (Path.ofString dir) = true ∧ path.Plain ∧
      w.disk.writeText path text = .ok (runScanWithin w (jsonReport dir out)).disk := by
  obtain ⟨p, hp⟩ := exists_prepared_of_written h
  obtain ⟨-, -, hthere, -⟩ := prepare_eq_ok.1 hp
  obtain ⟨-, rfl, -⟩ := (written_jsonReport_iff hconfig hthere).1 h
  exact ⟨hthere, Path.plain_ofString out, writeText_of_written hp h⟩

/-- **A second run with the same configuration** writes the same report exactly if the first one
goes unnoticed. -/
theorem written_again_iff {entries : List (String × FileTree)} (hsound : w.disk.Sound)
    (hconfig : Settings.load w.machine.stack w.disk none = .ok {})
    (hdir : w.disk.get? (w.disk.absolute (Path.ofString dir)) = some (.folder entries))
    (hwritten : (runScanWithin w (jsonReport dir out)).written = some (path, text))
    (hkeeps : Settings.Keeps w.disk (runScanWithin w (jsonReport dir out)).disk path) :
    (runScanWithin { w with disk := (runScanWithin w (jsonReport dir out)).disk }
        (jsonReport dir out)).written = some (path, text) ↔
      Scan.Unnoticed w.machine.stack (defaultPlan dir) w.disk
        (runScanWithin w (jsonReport dir out)).disk path := by
  obtain ⟨hthere, hplain, hwrite⟩ := exists_of_jsonReport hconfig hwritten
  obtain ⟨hout, hpath, result, hscan, hwritable, htext, -⟩ :=
    (written_jsonReport_iff hconfig hthere).1 hwritten
  generalize (runScanWithin w (jsonReport dir out)).disk = after at hwrite hkeeps ⊢
  have hconfig' : Settings.load w.machine.stack after none = .ok {} :=
    (Settings.load_of_keeps hsound hwrite hkeeps).trans hconfig
  have hsecond := @written_jsonReport_iff { w with disk := after } dir out path text hconfig'
    (exists_after hthere hwrite)
  rw [hsecond, ← Scan.result_after_iff hsound.proper hplain (engine_defaultPlan dir) hdir hwrite
    hscan]
  constructor
  · rintro ⟨-, -, result', hscan', hwritable', htext', -⟩
    obtain rfl := eq_of_render_eq (engine_defaultPlan dir) hscan hscan' hwritable hwritable'
      (htext.symm.trans htext')
    exact hscan'
  · intro hscan'
    obtain ⟨hnone, again, hagain⟩ := Disk.exists_writeText_again hwrite text
    have hroom : ¬ w.machine.stack.newFolders < after.missingAbove path := by omega
    refine ⟨hout, hpath, result, hscan', hwritable, htext, again, ?_⟩
    rw [writeReport, if_neg hroom]
    exact mapError_eq_ok.2 hagain

/-- **A second run with another configuration** does not get as far as a report. -/
theorem not_written_again (hsound : w.disk.Sound)
    (hconfig : Settings.load w.machine.stack w.disk none = .ok {})
    (hwritten : (runScanWithin w (jsonReport dir out)).written = some (path, text))
    (hkeeps : ¬ Settings.Keeps w.disk (runScanWithin w (jsonReport dir out)).disk path) :
    (runScanWithin { w with disk := (runScanWithin w (jsonReport dir out)).disk }
        (jsonReport dir out)).written ≠ some (path, text) := by
  intro h
  obtain ⟨hthere, -, hwrite⟩ := exists_of_jsonReport hconfig hwritten
  obtain ⟨-, -, result, -, -, rfl, -⟩ := (written_jsonReport_iff hconfig hthere).1 hwritten
  obtain ⟨p, hp⟩ := exists_prepared_of_written h
  obtain ⟨loaded, hloaded, -⟩ := prepare_eq_ok.1 hp
  obtain ⟨rest, hbrace⟩ := toList_render_json result
  exact Settings.not_load_of_not_keeps hsound hwrite hbrace hkeeps loaded hloaded

/-- **A second run repeats the report of the first** exactly if the first has left the configuration
file alone and its report goes unnoticed by the second scan. -/
theorem rerun_repeats_report_iff {arguments : List String} {entries : List (String × FileTree)}
    (hoptions : CommandLine.options arguments = .ok (jsonReport dir out))
    (hsound : w.disk.Sound) (hconfig : Settings.load w.machine.stack w.disk none = .ok {})
    (hdir : w.disk.get? (w.disk.absolute (Path.ofString dir)) = some (.folder entries))
    (hwritten : (run w arguments).written = some (path, text)) :
    (run { w with disk := (run w arguments).disk } arguments).written = some (path, text) ↔
      Settings.Keeps w.disk (run w arguments).disk path ∧
      Scan.Unnoticed w.machine.stack (defaultPlan dir) w.disk (run w arguments).disk path := by
  simp only [run_of_options hoptions] at hwritten ⊢
  by_cases hkeeps : Settings.Keeps w.disk (runScanWithin w (jsonReport dir out)).disk path
  · rw [written_again_iff hsound hconfig hdir hwritten hkeeps]
    exact (and_iff_right hkeeps).symm
  · exact iff_of_false (not_written_again hsound hconfig hwritten hkeeps) fun h => hkeeps h.1

/-! ## Two places for a report -/

/-- A folder with one file. -/
def smallProject : World where
  disk :=
    { tree := .folder [("main.py", .file { bytes := Text.Utf8.encode "x = 1\n".toList })]
      current := ⟨.slash, []⟩ }

/-- The disk is one that a program can find. -/
theorem sound_smallProject : smallProject.disk.Sound where
  proper := .folder (by simp) (by simp [FileTree.isName]) fun e he => by
    obtain rfl := List.mem_singleton.1 he
    exact .file _
  current := ⟨[], _, rfl⟩

/-- A report in the folder that is scanned, under a name that is not wanted. -/
def textReport : List String := ["scan", ".", "--format", "json", "--out", "report.txt"]

/-- The report of `textReport` is in the folder, which is not deep, and no configuration file is. -/
theorem disk_textReport :
    (run smallProject textReport).written.map (·.1) = some (Path.ofString "report.txt") ∧
      (run smallProject textReport).disk.place? (Path.ofString "report.txt") =
        some ["report.txt"] ∧
      (run smallProject textReport).disk.exists? Settings.configPath = false ∧
      (run smallProject textReport).disk.place? Settings.configPath = none ∧
      ((run smallProject textReport).disk.get? ⟨.slash, []⟩).all (fun tree =>
        (defaultPlan ".").choice.depth ⟨.slash, []⟩ tree ≤ Stack.usual.folders) = true := by
  decide +kernel

/-- A second run does not want the report of the first, and repeats it. -/
theorem rerun_repeats_textReport :
    CommandLine.options textReport = .ok (jsonReport "." "report.txt") ∧
      smallProject.disk.Sound ∧ Settings.load .usual smallProject.disk none = .ok {} ∧ ∃ path text,
      (run smallProject textReport).written = some (path, text) ∧
      (run { smallProject with disk := (run smallProject textReport).disk } textReport).written =
        some (path, text) := by
  obtain ⟨hpath, hplace, hthere, hnone, hdepth⟩ := disk_textReport
  obtain ⟨⟨path, text⟩, hwritten, hpath⟩ := Option.map_eq_some_iff.1 hpath
  subst hpath
  have hrepeats := rerun_repeats_report_iff rfl sound_smallProject rfl rfl hwritten
  refine ⟨rfl, sound_smallProject, rfl, _, text, hwritten, hrepeats.2 ⟨⟨hthere, ?_⟩, ?_⟩⟩
  · rw [hnone, hplace]
    simp
  · refine ⟨fun tree' htree' => ?_, fun top names tree tree' hl _ hplace' => ?_⟩
    · have hall := (Option.all_eq_true _ _).1 hdepth
      exact of_decide_eq_true (hall tree' htree')
    obtain ⟨rfl, -⟩ := Prod.mk.inj (Except.ok.inj hl)
    obtain rfl := Option.some.inj (hplace.symm.trans hplace')
    have hname : ∀ f, ¬ Scan.Wanted (defaultPlan ".").choice ⟨.slash, []⟩ ["report.txt"] f :=
      fun f h => absurd h.named (by decide +kernel)
    exact Scan.countsAs_of_not_wanted (fun f h => hname f h.2) fun f h => hname f h.2

/-- The report where the documentation has it. -/
def documentedReport : List String :=
  ["scan", ".", "--format", "json", "--out", "reports/supersonar.json"]

/-- The report of `documentedReport` is a small file in the folder, and no configuration file is. -/
theorem disk_documentedReport :
    (run smallProject documentedReport).written.map (·.1) =
        some (Path.ofString "reports/supersonar.json") ∧
      (run smallProject documentedReport).written.any (·.2.utf8ByteSize ≤ 1024 * 1024) = true ∧
      (run smallProject documentedReport).disk.place? (Path.ofString "reports/supersonar.json") =
        some ["reports", "supersonar.json"] ∧
      (run smallProject documentedReport).disk.exists? Settings.configPath = false ∧
      (run smallProject documentedReport).disk.place? Settings.configPath = none := by
  decide +kernel

/-- A file of that name is wanted if it is small. -/
theorem wanted_documentedReport {f : File} (hsmall : f.bytes.length ≤ 1024 * 1024) :
    Scan.Wanted (defaultPlan ".").choice ⟨.slash, []⟩ ["reports", "supersonar.json"] f where
  notExcluded := by decide +kernel
  notGenerated _ above rest h hne := by
    match above, h with
    | [_], h =>
      obtain ⟨rfl, -⟩ := List.cons.inj h
      decide +kernel
    | [_, _], h =>
      simp only [List.cons_append, List.cons.injEq] at h
      obtain ⟨rfl, rfl, -⟩ := h
      decide +kernel
  small _ := Int.ofNat_le.2 hsmall
  named := by decide +kernel

/-- A second run counts the report of the first as one more file, and does not repeat it. -/
theorem rerun_counts_documentedReport :
    CommandLine.options documentedReport = .ok (jsonReport "." "reports/supersonar.json") ∧
      smallProject.disk.Sound ∧ Settings.load .usual smallProject.disk none = .ok {} ∧ ∃ path text,
      (run smallProject documentedReport).written = some (path, text) ∧
      (run { smallProject with disk := (run smallProject documentedReport).disk }
        documentedReport).written ≠ some (path, text) := by
  have hoptions :
      CommandLine.options documentedReport = .ok (jsonReport "." "reports/supersonar.json") := rfl
  obtain ⟨hpath, hsmall, hplace, hthere, hnone⟩ := disk_documentedReport
  obtain ⟨⟨path, text⟩, hwritten, hpath⟩ := Option.map_eq_some_iff.1 hpath
  subst hpath
  refine ⟨hoptions, sound_smallProject, rfl, _, text, hwritten, fun hagain => ?_⟩
  rw [hwritten, Option.any_some, decide_eq_true_eq] at hsmall
  simp only [run_of_options hoptions] at hwritten hagain hplace hthere hnone
  have hkept : Settings.Keeps smallProject.disk
      (runScanWithin smallProject (jsonReport "." "reports/supersonar.json")).disk
      (Path.ofString "reports/supersonar.json") := by
    refine ⟨hthere, ?_⟩
    rw [hnone, hplace]
    simp
  have hunnoticed := (written_again_iff sound_smallProject rfl rfl hwritten hkept).1 hagain
  obtain ⟨-, -, hwrite⟩ := exists_of_jsonReport rfl hwritten
  generalize (runScanWithin smallProject (jsonReport "." "reports/supersonar.json")).disk = after
    at hwrite hplace hunnoticed
  obtain ⟨place, -, hlocate⟩ := Disk.writeText_eq_ok hwrite
  obtain rfl := Option.some.inj ((Disk.place?_of_locate hlocate).symm.trans hplace)
  have hafter : after.get? ⟨.slash, []⟩ = some after.tree := rfl
  -- the report is wanted after the first run, and no file was there before
  obtain ⟨f, hf, -⟩ := (hunnoticed.file [] _ _ _ rfl hafter hplace).wanted.2
    ⟨_, by rw [FileTree.fileAt?, Disk.get?_of_locate hlocate]; rfl,
      wanted_documentedReport (by rw [Disk.rewritten, Text.Utf8.length_encode]; exact hsmall)⟩
  have hbefore : smallProject.disk.tree.fileAt? ["reports", "supersonar.json"] = none := rfl
  exact absurd (hbefore.symm.trans hf) (by simp)

end CodeAudit.Program
