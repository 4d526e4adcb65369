import CodeAudit.Catalogue
import CodeAudit.Json.Writer

/-!
# The JSON report

Totals, counts by severity and rule, a summary of the security issues, and the issues themselves in
the order of the result.
-/

/-! ## Languages of files -/

namespace CodeAudit

/-- A language that reports tell apart. -/
inductive Language where
  | python
  | java
  | kotlin
  | go
  | javaScript
  | yaml
  | dockerfile
  | other
  deriving Repr, DecidableEq

/-- The name of a language in reports. -/
def Language.name : Language → String
  | python => "python"
  | java => "java"
  | kotlin => "kotlin"
  | go => "go"
  | javaScript => "javascript"
  | yaml => "yaml"
  | dockerfile => "dockerfile"
  | other => "other"

/-- **The language of a file**, told by the end of its path in either case. -/
def Language.ofPath (path : String) : Language :=
  let lower := Text.lower path.toList
  let ends := fun (ending : String) => ending.toList.isSuffixOf lower
  if ends ".py" then .python
  else if ends ".java" then .java
  else if ends ".kt" then .kotlin
  else if ends ".go" then .go
  else if [".js", ".jsx", ".ts", ".tsx"].any ends then .javaScript
  else if [".yaml", ".yml"].any ends then .yaml
  else if ends ".dockerfile" || ends "/dockerfile" || lower == "dockerfile".toList then .dockerfile
  else .other

end CodeAudit

/-! ## The JSON report -/

namespace CodeAudit.Report

/-! ## Counts -/

/-- Sorts texts by code points. -/
def sortTexts (texts : List String) : List String := texts.mergeSort fun a b => !(b < a)

/-- How often each text occurs, in the order of the texts. -/
def tally (texts : List String) : List (String × Nat) :=
  (sortTexts texts.eraseDups).map fun t => (t, texts.count t)

/-- The counts of the four severities, in words. -/
def severityWords (issues : List Issue) : String :=
  s!"low={countSeverity .low issues} medium={countSeverity .medium issues} " ++
    s!"high={countSeverity .high issues} critical={countSeverity .critical issues}"

/-! ## Values -/

/-- A coordinate as a value. -/
def coordValue : Coord → Json
  | .number n => .int n
  | .flag b => .bool b

/-- A count as a value. -/
def countValue (n : Nat) : Json := .int n

/-- An optional whole number as a value. -/
def intValue? : Option Int → Json
  | some n => .int n
  | none => .null

/-- A quantity as a value. -/
def quantityValue : Number.Quantity → Json
  | .whole n => .int n
  | .real x => .float x
  | .truth b => .bool b

/-- An issue as an object. -/
def issueValue (i : Issue) : Json :=
  .obj [("rule_id", .str i.ruleId), ("title", .str i.title), ("severity", .str i.severity.name),
    ("message", .str i.message), ("file_path", .str i.filePath), ("line", coordValue i.line),
    ("column", coordValue i.column)]

/-- The counts of the four severities. -/
def severityCounts (issues : List Issue) : Json :=
  .obj ([Severity.low, .medium, .high, .critical].map fun s =>
    (s.name, countValue (countSeverity s issues)))

/-- How often each text occurs, as an object. -/
def tallyValue (texts : List String) : Json :=
  .obj ((tally texts).map fun (t, n) => (t, countValue n))

/-- Whether a file comes before another in the list of files with most issues: more issues first,
then by path. -/
def rankedBefore (a b : String × Nat) : Bool :=
  a.2 > b.2 || (a.2 == b.2 && !(b.1 < a.1))

/-- The greatest number of files in that list. -/
def maxTopFiles : Nat := 10

/-- The files with most issues. -/
def topFiles (issues : List Issue) : List (String × Nat) :=
  ((tally (issues.map (·.filePath))).mergeSort rankedBefore).take maxTopFiles

/-- The issues of security rules. -/
def securityIssues (issues : List Issue) : List Issue :=
  issues.filter fun i => Security.isSecurityRule i.ruleId

/-- The summary of security issues. -/
def securitySummary (issues : List Issue) : Json :=
  .obj [("issues_total", countValue issues.length),
    ("files_with_issues", countValue (filesOf issues).length),
    ("severity_counts", severityCounts issues),
    ("rule_counts", tallyValue (issues.map (·.ruleId))),
    ("language_counts", tallyValue (issues.map fun i => (Language.ofPath i.filePath).name)),
    ("top_files", .arr ((topFiles issues).map fun (path, n) =>
      .obj [("file_path", .str path), ("issues", countValue n)]))]

/-- The coverage in percent with two places. -/
def roundedPercent (c : Coverage) : Float := Number.roundTo 2 c.percent

/-- The coverage as an object. -/
def coverageValue (c : Coverage) : Json :=
  .obj [("line_rate", quantityValue c.lineRate), ("line_percent", .float (roundedPercent c)),
    ("lines_covered", intValue? c.linesCovered), ("lines_valid", intValue? c.linesValid)]

/-- **The JSON report of a result.** -/
def data (result : ScanResult) : Json :=
  let issues := result.issues
  .obj ([("files_scanned", .int result.filesScanned),
    ("files_with_issues", countValue (filesOf issues).length),
    ("issues_total", countValue issues.length),
    ("severity_counts", severityCounts issues),
    ("rule_counts", tallyValue (issues.map (·.ruleId))),
    ("security_summary", securitySummary (securityIssues issues)),
    ("issues", .arr (issues.map issueValue))] ++
    (result.coverage.map fun c => ("coverage", coverageValue c)).toList)

end CodeAudit.Report
