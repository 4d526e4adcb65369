import CodeAudit.Proofs.Program.Breaking

/-!
# How a run ends

A run exits with 0 or 2 unless one of its stages breaks it off (`Breaks`). The preparation does so
where a setting is of the wrong kind or a path is too long (`BreaksPreparation`), the scan as
`Scan.Breaks` says, and the report where its path is none or in too many missing folders
(`BreaksReport`). After the report only a baseline that is too deep and a limit that cannot be
written break off, since the gate knows the rank of every severity by then (`BreaksConclusion`).
-/

namespace CodeAudit

/-! ## The stages of the program -/

namespace Program

open CommandLine (ScanOptions)

variable {w : World} {stack : Stack} {disk : Disk} {o : ScanOptions} {path : Path} {s : Settings}
  {p : Prepared} {result : ScanResult}

/-- **A configuration file that breaks a run off**: it is too deep for the reader, or it can be read
and is unsound. -/
def BreaksConfig (stack : Stack) (bytes : List UInt8) : Prop :=
  ∃ text, Text.Utf8.decode bytes = .ok text ∧ (stack.settings? text ≠ none ∨
    ∃ entries, Toml.read text = .ok entries ∧ Settings.Unsound entries)

/-- A setting that is set and is no path. -/
def NoPath (v : Option Toml.Value) : Prop :=
  ∃ value, v = some value ∧ value.isSet = true ∧ value.isText = false

/-- A setting that names a path. -/
def Names (v : Option Toml.Value) (path : Path) : Prop :=
  ∃ text, v = some (.str text) ∧ text ≠ "" ∧ path = Path.ofString text

/-- **A baseline that breaks a run off**: it is no path, or one that is too long. -/
def BreaksBaseline (disk : Disk) (s : Settings) : Prop :=
  NoPath s.gate.baselineReport ∨
    ∃ path, Names s.gate.baselineReport path ∧ disk.locate path = .error .tooLong

/-- **Coverage that breaks a run off**: it is no path, or that of a file which does. -/
def BreaksCoverage (disk : Disk) (s : Settings) : Prop :=
  NoPath s.scan.coverageXml ∨
    ∃ path, Names s.scan.coverageXml path ∧
      ∃ bytes, disk.bytes path = .ok bytes ∧ CoverageFile.Breaks bytes

/-- **Merged settings that break a preparation off**: the gate has limits that are no numbers, the
baseline or the coverage breaks off, or endings or names of files are of the wrong kind. Each stage
can break off only if those before it have not ended the run. -/
def BreaksMerged (disk : Disk) (s : Settings) : Prop :=
  Settings.UnsoundGate s.gate ∨ Gives (requireSound s) ∧
    (BreaksBaseline disk s ∨ Gives (baselinePath disk s) ∧
      (BreaksCoverage disk s ∨ Gives (coverageOf disk s) ∧ Settings.Unplannable s.scan))

/-- **A preparation that breaks off**: the configuration file is too deep or unsound, the path of
what is to be scanned is too long, the command line adds to a list with parts, or the merged
settings break off. -/
def BreaksPreparation (w : World) (o : ScanOptions) : Prop :=
  (∃ bytes, w.disk.bytes (Path.ofString (o.config.getD Settings.defaultFile)) = .ok bytes ∧
    BreaksConfig w.machine.stack bytes) ∨
  ∃ loaded, Settings.load w.machine.stack w.disk o.config = .ok loaded ∧
    (w.disk.locate (Path.ofString o.path) = .error .tooLong ∨
      Gives (requireTarget w.disk (Path.ofString o.path)) ∧
        (Settings.Unmergeable loaded.scan o ∨
          ∃ s, loaded.merge o = .ok s ∧ BreaksMerged w.disk s))

/-- A format that there is none of, and that is too deep to be told of. -/
def Untold (stack : Stack) (format : Toml.Value) : Prop :=
  (string? format).bind Report.Format.ofName? = none ∧ stack.value? format ≠ none

/-- **A report that breaks a run off**: its format cannot be told of, or it is to be written to what
is no path or to a path in too many missing folders. -/
def BreaksReport (stack : Stack) (disk : Disk) (r : ReportSettings) (result : ScanResult) : Prop :=
  Untold stack r.format ∨ Gives (reportText stack r.format result) ∧
    ∃ out, r.out = some out ∧ (out.isText = false ∨
      ∃ text, out = .str text ∧ stack.newFolders < disk.missingAbove (Path.ofString text))

/-- A report to compare with that is too deep for the reader. -/
def DeepBaseline (stack : Stack) (disk : Disk) (path : Path) : Prop :=
  ∃ bytes text, disk.textBytes path = .ok bytes ∧ Text.Utf8.decode bytes = .ok text ∧
    stack.json? (Text.unifyNewlines text) ≠ none

/-- **A conclusion that breaks a run off**: the report to compare with is too deep, or the gate
cannot tell of a limit. -/
def BreaksConclusion (stack : Stack) (disk : Disk) (p : Prepared) (result : ScanResult) : Prop :=
  (∃ path, p.baseline = some path ∧ DeepBaseline stack disk path) ∨
    ∃ judged, compareBaseline stack disk p result = .ok judged ∧
      ¬ Gate.Tellable (limitsOf p.settings.gate) judged.1

/-- **What breaks a run off once its scan has a result**: the report, or what follows it. -/
def BreaksAfter (w : World) (p : Prepared) (result : ScanResult) : Prop :=
  BreaksReport w.machine.stack w.disk p.settings.report result ∨
    ∃ d, deliver w.machine.stack w.disk p.settings.report result = .ok d ∧
      BreaksConclusion w.machine.stack d.disk p result

/-- **A run that breaks off**: in its preparation, in its scan, or after it. -/
def Breaks (w : World) (o : ScanOptions) : Prop :=
  BreaksPreparation w o ∨ ∃ p, prepare w o = .ok p ∧ (Scan.Breaks w.disk w.machine p.plan ∨
    ∃ result, (Scan.runWithin w.disk w.machine p.plan p.coverage).result = .ok result ∧
      BreaksAfter w p result)

end Program

end CodeAudit
