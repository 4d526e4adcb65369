import CodeAudit.Toml.Use

/-!
# Settings

What decides how a scan runs, when its result passes, and where the report goes. Settings whose
values are checked only when they are used keep the values as they were given.
-/

namespace CodeAudit

/-- Directories and files that a scan passes over unless it is told otherwise. -/
def defaultExcludes : List String := [".git", ".venv", "venv", "build", "dist", "__pycache__"]

/-- Endings of the files that a scan looks at unless it is told otherwise. -/
def defaultExtensions : List String :=
  [".py", ".js", ".jsx", ".ts", ".tsx", ".java", ".kt", ".go", ".rs", ".c", ".h", ".cpp", ".hpp",
   ".cs", ".php", ".rb", ".swift", ".scala", ".sql", ".yaml", ".yml", ".json", ".toml", ".ini",
   ".cfg", ".sh", ".bash", ".zsh", ".ps1", ".dockerfile", ".md"]

/-- Names of the files that a scan looks at whatever their ending. -/
def defaultFilenames : List String :=
  ["Dockerfile", "Jenkinsfile", "Makefile", "Vagrantfile", ".env"]

/-- Strings as values. -/
def textValues (texts : List String) : List Toml.Value := texts.map .str

/-- How a scan runs. -/
structure ScanSettings where
  exclude : List Toml.Value := textValues defaultExcludes
  coverageXml : Option Toml.Value := none
  includeExtensions : List Toml.Value := textValues defaultExtensions
  includeFilenames : List Toml.Value := textValues defaultFilenames
  /-- The size in kilobytes beyond which files are passed over; zero allows every size. -/
  maxFileSizeKb : Int := 1024
  skipGenerated : Bool := true
  /-- The rules to report; `none` stands for all. -/
  enabledRules : Option (List String) := none
  disabledRules : List String := []
  /-- Whether comments in the files can silence issues. -/
  inlineIgnore : Bool := true
  securityOnly : Bool := false
  engine : String := "internal"
  externalScanner : String := "semgrep"
  externalConfigs : List String := []
  deriving Repr

/-- When a result passes. -/
structure GateSettings where
  failOn : Option Toml.Value := none
  maxIssues : Option Toml.Value := none
  maxFilesWithIssues : Option Toml.Value := none
  maxLow : Option Toml.Value := none
  maxMedium : Option Toml.Value := none
  maxHigh : Option Toml.Value := none
  maxCritical : Option Toml.Value := none
  minCoverage : Option Toml.Value := none
  baselineReport : Option Toml.Value := none
  onlyNewIssues : Bool := false
  deriving Repr

/-- Where the report goes, and its form. -/
structure ReportSettings where
  format : Toml.Value := .str "json"
  out : Option Toml.Value := none
  deriving Repr

/-- All settings. -/
structure Settings where
  scan : ScanSettings := {}
  gate : GateSettings := {}
  report : ReportSettings := {}
  deriving Repr

end CodeAudit

/-! ## Sound settings -/

namespace CodeAudit.Settings

open Toml (Value Misuse)
open Number (Quantity)

/-- Something that is wrong with settings. -/
inductive Problem where
  | unknownSeverity
  | negativeLimit (name : String)
  | coverageRange
  | noBaseline
  | noRules
  | unknownEngine
  deriving Repr, DecidableEq

/-- The text of a problem. -/
def Problem.message : Problem → String
  | unknownSeverity => "fail_on must be one of: low, medium, high, critical"
  | negativeLimit name => s!"{name} must be >= 0"
  | coverageRange => "min_coverage must be between 0 and 100"
  | noBaseline => "only_new_issues requires baseline_report"
  | noRules => "enabled_rules must be non-empty when set"
  | unknownEngine => "scan.engine must be one of: internal, semgrep, hybrid"

/-- The names of the engines. -/
def engines : List String := ["internal", "semgrep", "hybrid"]

/-- A problem, if there is one. -/
def problemIf (wrong : Bool) (p : Problem) : List Problem := if wrong then [p] else []

/-- Whether a value is one of some texts. -/
def isOneOf (texts : List String) : Value → Bool
  | .str s => texts.contains s
  | _ => false

/-- What is wrong with the severity from which on a result fails. -/
def severityProblems (failOn : Option Value) : Except Misuse (List Problem) :=
  match failOn with
  | none => .ok []
  | some v => do
    let v ← v.single
    return problemIf (!isOneOf ["low", "medium", "high", "critical"] v) .unknownSeverity

/-- What is wrong with a limit on a number of issues. -/
def limitProblems (name : String) (limit : Option Value) : Except Misuse (List Problem) :=
  match limit with
  | none => .ok []
  | some v => do
    let q ← v.limit
    return problemIf (q.isLess (.whole 0)) (.negativeLimit name)

/-- What is wrong with the least coverage. -/
def coverageProblems (least : Option Value) : Except Misuse (List Problem) :=
  match least with
  | none => .ok []
  | some v => do
    let q ← v.limit
    return problemIf (q.isLess (.whole 0) || Quantity.isLess (.whole 100) q) .coverageRange

/-- The limits on numbers of issues, with their names. -/
def countLimits (gate : GateSettings) : List (String × Option Value) :=
  [("max_issues", gate.maxIssues), ("max_files_with_issues", gate.maxFilesWithIssues),
   ("max_low", gate.maxLow), ("max_medium", gate.maxMedium), ("max_high", gate.maxHigh),
   ("max_critical", gate.maxCritical)]

/-- Whether an optional value is set. -/
def isGiven (v : Option Value) : Bool := (v.map (·.isSet)).getD false

/-- **Everything that is wrong with settings.** -/
def problems (s : Settings) : Except Misuse (List Problem) := do
  let severity ← severityProblems s.gate.failOn
  let limits ← (countLimits s.gate).mapM fun (name, limit) => limitProblems name limit
  let coverage ← coverageProblems s.gate.minCoverage
  return severity ++ limits.flatten ++ coverage
    ++ problemIf (s.gate.onlyNewIssues && !isGiven s.gate.baselineReport) .noBaseline
    ++ problemIf (s.scan.enabledRules == some []) .noRules
    ++ problemIf (!engines.contains s.scan.engine) .unknownEngine

end CodeAudit.Settings
