import CodeAudit.Baseline
import CodeAudit.CoverageFile
import CodeAudit.Gate
import CodeAudit.Progress
import CodeAudit.Report.Format
import CodeAudit.Scan.Basic
import CodeAudit.Settings.Load
import CodeAudit.Settings.Merge

/-!
# The program

A run takes the command line, the disk, and what is known of the machine, and gives an exit code,
the texts on the output and error streams, and the disk afterwards. It goes through stages, each of
which can end it: preparation, the scan, the report, the comparison with a baseline, and the gate.
-/

namespace CodeAudit.Program

open CommandLine (ScanOptions)
open Toml (Misuse)

/-- What a run works in. -/
structure World where
  disk : Disk
  machine : External.Machine := {}
  /-- Whether the error stream is a terminal. -/
  terminal : Bool := false

/-- A fault that a run does not report but breaks off with. -/
inductive Crash where
  | misuse (m : Misuse)
  | disk (f : Disk.Fault)
  | coverage (f : CoverageFile.Fault)
  | overflow (o : Overflow)
  | external (f : External.Fault)
  | gate (f : Gate.Fault)

/-- The text of a fault. -/
def Crash.message : Crash → String
  | misuse m => m.message
  | disk f => f.message
  | coverage f => f.message
  | overflow o => o.message
  | external f => f.message
  | gate f => f.message

/-- How a run ends. -/
inductive Ending where
  | exit (code : Nat)
  | crash (c : Crash)

/-- What a run leaves. -/
structure Outcome where
  ending : Ending
  output : String := ""
  errors : String := ""
  disk : Disk
  /-- The file that was written, and its text. -/
  written : Option (Path × String) := none
  calls : List External.Call := []

/-- Why a stage ends the run: faults that are reported, a line each, or a crash. -/
inductive Failure where
  | reported (lines : List String)
  | crash (c : Crash)

/-- A fault that is reported under the name of its stage. -/
def reported (stage message : String) : Failure := .reported [s!"[{stage}] {message}"]

/-- Lines of text. -/
def linesText (lines : List String) : String := String.join (lines.map (· ++ "\n"))

/-- How a failure ends a run. -/
def Failure.ending : Failure → Ending
  | reported _ => .exit 2
  | crash c => .crash c

/-- What a failure says on the error stream. -/
def Failure.text : Failure → String
  | reported lines => linesText lines
  | crash _ => ""

/-! ## Preparation -/

/-- Whether a misuse is reported. -/
def isReportedMisuse : Misuse → Bool
  | .asNumeral _ _ => true
  | .asWhole .notANumber => true
  | .asText _ => true
  | _ => false

/-- A fault of the configuration file. -/
def configFailure (e : Settings.LoadError) : Failure :=
  match e with
  | .misuse m =>
    if isReportedMisuse m then reported "config" m.message else .crash (.misuse m)
  | .tooDeep complaint => .crash (.overflow (.reading complaint))
  | e => reported "config" e.message

/-- A fault of the coverage file. -/
def coverageFailure (f : CoverageFile.Fault) : Failure :=
  match f with
  | .tooLarge | .document (.unknownEncoding _) => .crash (.coverage f)
  | f => reported "coverage" f.message

/-- A misuse that is not reported. -/
def crashed {α : Type} (e : Except Misuse α) : Except Failure α :=
  e.mapError fun m => .crash (.misuse m)

/-- Whether a path leads to something. That it is too long is not reported. -/
def isThere (disk : Disk) (path : Path) : Except Failure Bool :=
  (disk.seek path).mapError fun f => .crash (.disk f)

/-- A file that settings name: its path, if the setting is set. -/
def pathSetting (v : Option Toml.Value) : Except Failure (Option Path) :=
  match v with
  | none => .ok none
  | some v => if v.isSet then do return some (← crashed v.path) else .ok none

/-- The report to compare with, which has to be there. -/
def baselinePath (disk : Disk) (s : Settings) : Except Failure (Option Path) := do
  match ← pathSetting s.gate.baselineReport with
  | none => return none
  | some path =>
    if ← isThere disk path then return some path
    else .error (reported "baseline" s!"Baseline report not found: {path}")

/-- The coverage that the settings point to. -/
def coverageOf (disk : Disk) (s : Settings) : Except Failure (Option Coverage) := do
  match ← pathSetting s.scan.coverageXml with
  | none => return none
  | some path => do return some (← (CoverageFile.load disk path).mapError coverageFailure)

/-- The text of an ending. -/
def endingText : Toml.Value → Except Misuse String
  | .str s => .ok s
  | v => .error (.asEnding v)

/-- The text of a value, if it is a string. -/
def string? : Toml.Value → Option String
  | .str s => some s
  | _ => none

/-- The plan of a scan. Of names only strings can ever be met. -/
def planOf (path : String) (s : ScanSettings) : Except Misuse Scan.Plan := do
  let extensions ← s.includeExtensions.mapM endingText
  let filenames ← s.includeFilenames.mapM (·.single)
  return {
    root := Path.ofString path
    choice := {
      excludes := s.exclude.filterMap string?
      extensions
      filenames := filenames.filterMap string?
      maxFileSizeKb := s.maxFileSizeKb
      skipGenerated := s.skipGenerated }
    enabledRules := s.enabledRules
    disabledRules := s.disabledRules
    inlineIgnore := s.inlineIgnore
    securityOnly := s.securityOnly
    engine := s.engine
    external := {
      scanner := s.externalScanner
      configs := s.externalConfigs
      excludes := s.exclude } }

/-- Everything that is settled before the scan. -/
structure Prepared where
  settings : Settings
  baseline : Option Path
  coverage : Option Coverage
  plan : Scan.Plan

/-- What is to be scanned has to be there. -/
def requireTarget (disk : Disk) (target : Path) : Except Failure Unit := do
  if ← isThere disk target then return ()
  else .error (reported "scan" s!"Path not found: {target}")

/-- Nothing may be wrong with the settings. -/
def requireSound (s : Settings) : Except Failure Unit := do
  match ← crashed s.problems with
  | [] => return ()
  | problems => .error (.reported (problems.map fun p => s!"[gate] {p.message}"))

/-- The preparation of a run. -/
def prepare (w : World) (o : ScanOptions) : Except Failure Prepared := do
  let loaded ← (Settings.load w.machine.stack w.disk o.config).mapError configFailure
  requireTarget w.disk (Path.ofString o.path)
  let settings ← crashed (loaded.merge o)
  requireSound settings
  let baseline ← baselinePath w.disk settings
  let coverage ← coverageOf w.disk settings
  let plan ← crashed (planOf o.path settings.scan)
  return { settings, baseline, coverage, plan }

/-! ## The scan -/

/-- What the progress of a scan shows, and the display afterwards. No machine holds so many files
that their numbers could not be shown. -/
def progressText (start : Progress) (steps : List Scan.Step) : Progress × String :=
  steps.foldl
    (fun (p, shown) s =>
      match p.update (.whole s.index) (.whole s.total) s.path with
      | .ok (p, text) => (p, shown ++ text)
      | .error _ => (p, shown))
    (start, "")

/-- Whether a fault of the external scanner is reported. -/
def isReportedExternal : External.Fault → Bool
  | .notText _ | .tooDeep _ | .notObject _ | .notList _ | .finding (.coordinate .infinite) => false
  | _ => true

/-- A fault of the scan. -/
def scanFailure (f : Scan.Fault) : Failure :=
  match f with
  | .overflow o => .crash (.overflow o)
  | .external g => if isReportedExternal g then reported "scan" f.message else .crash (.external g)
  | f => reported "scan" f.message

/-! ## The report -/

/-- What the delivery of a report leaves. -/
structure Delivered where
  disk : Disk
  output : String
  written : Option (Path × String)

/-- What is said of a format that there is none of. -/
def unknownFormat (stack : Stack) (format : Toml.Value) : Failure :=
  match stack.value? format with
  | some complaint => .crash (.overflow (.reading complaint))
  | none =>
    reported "report" (if format.isWritable then Report.unsupportedMessage format.text
      else Number.unwritableMessage)

/-- The text of a report in the format that is set. -/
def reportText (stack : Stack) (format : Toml.Value) (result : ScanResult) :
    Except Failure String :=
  match (string? format).bind Report.Format.ofName? with
  | some f =>
    if Report.isWritable f result then .ok (Report.render f result)
    else .error (reported "report" Number.unwritableMessage)
  | none => .error (unknownFormat stack format)

/-- Writes a report into a file. To make the folders above it takes room on the stack. -/
def writeReport (stack : Stack) (disk : Disk) (path : Path) (text : String) :
    Except Failure Disk :=
  if stack.newFolders < disk.missingAbove path then .error (.crash (.overflow .walking))
  else (disk.writeText path text).mapError fun f => reported "report" f.message

/-- Writes the report to the output stream or into a file. -/
def deliver (stack : Stack) (disk : Disk) (s : ReportSettings) (result : ScanResult) :
    Except Failure Delivered := do
  let text ← reportText stack s.format result
  match s.out with
  | none => return ⟨disk, text ++ "\n", none⟩
  | some out =>
    let path ← crashed out.path
    let disk ← writeReport stack disk path text
    return ⟨disk, "", some (path, text)⟩

/-! ## Baseline and gate -/

/-- What is said about the baseline: the number of issues, of those it knows, and of the others. -/
def baselineLine (total matched new : Nat) : String :=
  s!"[baseline] total={total} baseline_matches={matched} new={new}\n"

/-- A fault of the report to compare with. -/
def baselineFailure (f : Baseline.Fault) : Failure :=
  match f with
  | .tooDeep complaint => .crash (.overflow (.reading complaint))
  | f => reported "baseline" f.message

/-- The result that the gate looks at, and what is said about the baseline. -/
def compareBaseline (stack : Stack) (disk : Disk) (p : Prepared) (result : ScanResult) :
    Except Failure (ScanResult × String) :=
  match p.baseline with
  | none => .ok (result, "")
  | some path => do
    let known ← (Baseline.load stack disk path).mapError baselineFailure
    let (new, matched) := Baseline.newIssues result known
    return (if p.settings.gate.onlyNewIssues then new else result,
      baselineLine result.issues.length matched new.issues.length)

/-- The limits that the settings give. -/
def limitsOf (s : GateSettings) : Limits :=
  let limit := fun (v : Option Toml.Value) => v.bind (·.quantity?)
  { failOn := (s.failOn.bind string?).map Severity.ofName
    maxIssues := limit s.maxIssues, maxFilesWithIssues := limit s.maxFilesWithIssues
    maxLow := limit s.maxLow, maxMedium := limit s.maxMedium, maxHigh := limit s.maxHigh
    maxCritical := limit s.maxCritical, minCoverage := limit s.minCoverage }

/-- The gate: the lines of the reasons to fail. -/
def judge (p : Prepared) (result : ScanResult) : Except Failure Unit := do
  let reasons ← (Gate.reasons (limitsOf p.settings.gate) result).mapError fun f => .crash (.gate f)
  match reasons with
  | [] => return ()
  | reasons => .error (.reported (reasons.map fun r => s!"[gate] {r}"))

/-- What follows the report: its summary, the baseline and the gate. Gives the ending and the text
on the error stream. -/
def conclude (stack : Stack) (disk : Disk) (p : Prepared) (result : ScanResult) :
    Ending × String :=
  let summary := Report.summary result ++ "\n"
  match compareBaseline stack disk p result with
  | .error f => (f.ending, summary ++ f.text)
  | .ok (judged, line) =>
    match judge p judged with
    | .error f => (f.ending, summary ++ line ++ f.text)
    | .ok () => (.exit 0, summary ++ line)

/-! ## The run -/

/-- What follows the scan of a run: its progress, the report and the conclusion. -/
def afterScan (w : World) (o : ScanOptions) (p : Prepared) (scan : Scan.Outcome) : Outcome :=
  let display := Progress.start (Progress.isWanted o.progress w.terminal) w.terminal
  let (display, shown) := progressText display scan.steps
  let ended := shown ++ display.finish.2
  match scan.result with
  | .error f =>
    match scanFailure f with
    | .crash c => { ending := .crash c, errors := shown, disk := w.disk, calls := scan.calls }
    | f =>
      { ending := f.ending, errors := ended ++ f.text, disk := w.disk, calls := scan.calls }
  | .ok result =>
    match deliver w.machine.stack w.disk p.settings.report result with
    | .error f =>
      { ending := f.ending, errors := ended ++ f.text, disk := w.disk, calls := scan.calls }
    | .ok d =>
      let (ending, text) := conclude w.machine.stack d.disk p result
      { ending, output := d.output, errors := ended ++ text, disk := d.disk
        written := d.written, calls := scan.calls }

/-- **A scan from its options to its exit code**, where its checks have all the room they need. -/
def runScan (w : World) (o : ScanOptions) : Outcome :=
  match prepare w o with
  | .error f => { ending := f.ending, errors := f.text, disk := w.disk }
  | .ok p => afterScan w o p (Scan.run w.disk w.machine p.plan p.coverage)

/-- **A scan from its options to its exit code**, on the stack of the machine. -/
def runScanWithin (w : World) (o : ScanOptions) : Outcome :=
  match prepare w o with
  | .error f => { ending := f.ending, errors := f.text, disk := w.disk }
  | .ok p => afterScan w o p (Scan.runWithin w.disk w.machine p.plan p.coverage)

/-- **The program.** -/
def run (w : World) (arguments : List String) : Outcome :=
  match CommandLine.options arguments with
  | .error stop =>
    { ending := .exit stop.code, output := stop.output, errors := stop.errors, disk := w.disk }
  | .ok o => runScanWithin w o

end CodeAudit.Program
