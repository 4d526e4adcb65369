import CodeAudit.Report.Data

/-!
# Report formats
-/

namespace CodeAudit.Report

/-! ## The report for readers -/

/-- Whether an issue comes before another of the same file. -/
def placedBefore (a b : Issue) : Bool :=
  if a.line.value ≠ b.line.value then a.line.value < b.line.value
  else if a.column.value ≠ b.column.value then a.column.value < b.column.value
  else !(b.ruleId < a.ruleId)

/-- The issues of a file, by place. -/
def issuesOfFile (issues : List Issue) (path : String) : List Issue :=
  (issues.filter (·.filePath == path)).mergeSort placedBefore

/-- The line of an issue. -/
def issueLine (i : Issue) : String :=
  let severity := Security.upperName i.severity.name
  s!"  - [{severity}] {i.ruleId} {i.line.text}:{i.column.text} {i.title} :: {i.message}"

/-- The line above the issues of a file. -/
def fileLine (path : String) (issues : List Issue) : String :=
  s!"\nFILE {path} (total={issues.length} c={countSeverity .critical issues} " ++
    s!"h={countSeverity .high issues} m={countSeverity .medium issues} " ++
    s!"l={countSeverity .low issues})"

/-- The lines of a file. -/
def fileLines (issues : List Issue) (path : String) : List String :=
  let own := issuesOfFile issues path
  fileLine path own :: own.map issueLine

/-- **The report for readers.** -/
def pretty (result : ScanResult) : String :=
  let issues := result.issues
  let security := securityIssues issues
  let head :=
    ["SUPERSONAR PRETTY REPORT",
     s!"Summary: files={result.filesScanned} issues={issues.length} {severityWords issues}",
     s!"Security: issues={security.length} {severityWords security}"]
  let coverage := result.coverage.map fun c => s!"Coverage: {Number.fixed 2 c.percent}%"
  "\n".intercalate (head ++ coverage.toList ++
    (sortTexts (filesOf issues)).flatMap (fileLines issues))

/-- The line that sums up a result. -/
def summary (result : ScanResult) : String :=
  let line :=
    s!"[summary] files={result.filesScanned} issues={result.issues.length} "
      ++ severityWords result.issues
  match result.coverage with
  | some c => line ++ s!" coverage={Number.fixed 2 c.percent}%"
  | none => line

/-! ## The SARIF report -/

/-- The level of a severity. -/
def level : Severity → String
  | .low => "note"
  | .medium => "warning"
  | .high => "error"
  | .critical => "error"
  | .other _ => "warning"

/-- The place of an issue. -/
def locationValue (i : Issue) : Json :=
  .obj [("physicalLocation", .obj [
    ("artifactLocation", .obj [("uri", .str i.filePath)]),
    ("region", .obj [("startLine", coordValue i.line), ("startColumn", coordValue i.column)])])]

/-- An issue as a result of a run. -/
def runResult (i : Issue) : Json :=
  .obj [("ruleId", .str i.ruleId), ("level", .str (level i.severity)),
    ("message", .obj [("text", .str (i.title ++ ": " ++ i.message))]),
    ("locations", .arr [locationValue i])]

/-- **The SARIF report of a result.** -/
def sarif (result : ScanResult) : Json :=
  let tool := Json.obj [("driver", .obj [("name", .str "supersonar"),
    ("informationUri", .str "https://example.com")])]
  let properties := result.coverage.map fun c =>
    ("properties", Json.obj [("coverageLinePercent", .float (roundedPercent c))])
  .obj [("$schema", .str "https://json.schemastore.org/sarif-2.1.0.json"),
    ("version", .str "2.1.0"),
    ("runs", .arr [.obj ([("tool", tool), ("results", .arr (result.issues.map runResult))]
      ++ properties.toList)])]

/-! ## Report formats -/

/-- A format of reports. -/
inductive Format where
  | json
  | sarif
  | pretty
  deriving Repr, DecidableEq

/-- The format with a name. -/
def Format.ofName? (name : String) : Option Format :=
  if name = "sarif" then some .sarif
  else if name = "json" then some .json
  else if name = "pretty" then some .pretty
  else none

/-- **The text of a report.** -/
def render (format : Format) (result : ScanResult) : String :=
  match format with
  | .json => (data result).indented
  | .sarif => (sarif result).indented
  | .pretty => pretty result

/-- Whether the numbers that a report for readers shows can be written. No count in it is larger
than the number of issues. -/
def isPrettyWritable (result : ScanResult) : Bool :=
  Number.isWritable result.filesScanned && Number.isWritable result.issues.length &&
    result.issues.all fun i => Number.isWritable i.line.value && Number.isWritable i.column.value

/-- Whether a report can be written. -/
def isWritable (format : Format) (result : ScanResult) : Bool :=
  match format with
  | .json => (data result).isWritable
  | .sarif => (sarif result).isWritable
  | .pretty => isPrettyWritable result

/-- What is said of a format that does not exist. -/
def unsupportedMessage (name : String) : String := s!"Unsupported report format: {name}"

end CodeAudit.Report
