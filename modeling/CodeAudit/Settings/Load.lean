import CodeAudit.Catalogue
import CodeAudit.Disk.Basic
import CodeAudit.Machine
import CodeAudit.Settings.Basic
import CodeAudit.Toml.Reader

/-!
# Settings from a file

A configuration file has a table for each group of settings. Settings that it leaves out keep their
defaults, and names that it does not know are passed over.
-/

namespace CodeAudit.Settings

open Toml (Value Entries Misuse)

/-- Why a configuration file cannot be used. -/
inductive LoadError where
  | missing (path : Path)
  | disk (f : Disk.Fault)
  | encoding (m : Text.Utf8.Malformed)
  | malformed (e : Toml.ReadError) (text : List Char)
  /-- The file is too deep for the stack. -/
  | tooDeep (complaint : String)
  | misuse (m : Misuse)

/-- The text of a fault. -/
def LoadError.message : LoadError → String
  | missing path => s!"Config file not found: {path}"
  | disk f => f.message
  | encoding m => m.message
  | malformed e text => e.message text
  | tooDeep complaint => complaint
  | misuse m => m.message

/-- The entries of a group of settings. -/
def group (file : Entries) (name : String) : Except Misuse Entries :=
  match Toml.valueOf? file name with
  | none => .ok []
  | some v => v.entries

/-- The members of a setting. -/
def membersOr (entries : Entries) (name : String) (default : List Value) :
    Except Misuse (List Value) :=
  match Toml.valueOf? entries name with
  | none => .ok default
  | some v => v.members

/-- The whole number of a setting. -/
def wholeOr (entries : Entries) (name : String) (default : Int) : Except Misuse Int :=
  match Toml.valueOf? entries name with
  | none => .ok default
  | some v => v.whole

/-- The texts of the members of a setting, if it is given. -/
def texts? (entries : Entries) (name : String) : Except Misuse (Option (List String)) :=
  match Toml.valueOf? entries name with
  | none => .ok none
  | some v => do return some (← (← v.members).mapM (·.written))

/-- Whether a setting is on. -/
def switch (entries : Entries) (name : String) (default : Bool) : Bool :=
  ((Toml.valueOf? entries name).map (·.isSet)).getD default

/-- The text of a setting. -/
def textOr (entries : Entries) (name : String) (default : String) : Except Misuse String :=
  match Toml.valueOf? entries name with
  | none => .ok default
  | some v => v.written

/-- The settings of a scan. -/
def scanOf (entries : Entries) : Except Misuse ScanSettings := do
  let base : ScanSettings := {}
  let exclude ← membersOr entries "exclude" base.exclude
  let includeExtensions ← membersOr entries "include_extensions" base.includeExtensions
  let includeFilenames ← membersOr entries "include_filenames" base.includeFilenames
  let maxFileSizeKb ← wholeOr entries "max_file_size_kb" base.maxFileSizeKb
  let enabledRules ← texts? entries "enabled_rules"
  let disabledRules ← texts? entries "disabled_rules"
  let engine ← textOr entries "engine" base.engine
  let externalScanner ← textOr entries "semgrep_binary" base.externalScanner
  let externalConfigs ← texts? entries "semgrep_configs"
  return {
    exclude, includeExtensions, includeFilenames, maxFileSizeKb
    coverageXml := Toml.valueOf? entries "coverage_xml"
    skipGenerated := switch entries "skip_generated" base.skipGenerated
    enabledRules := enabledRules.map (·.map Security.upperName)
    disabledRules := (disabledRules.getD base.disabledRules).map Security.upperName
    inlineIgnore := switch entries "inline_ignore" base.inlineIgnore
    securityOnly := switch entries "security_only" base.securityOnly
    engine := String.ofList (Text.lower engine.toList)
    externalScanner
    externalConfigs := externalConfigs.getD base.externalConfigs }

/-- The settings of the gate. -/
def gateOf (entries : Entries) : GateSettings :=
  let get := Toml.valueOf? entries
  { failOn := get "fail_on", maxIssues := get "max_issues"
    maxFilesWithIssues := get "max_files_with_issues", maxLow := get "max_low"
    maxMedium := get "max_medium", maxHigh := get "max_high", maxCritical := get "max_critical"
    minCoverage := get "min_coverage", baselineReport := get "baseline_report"
    onlyNewIssues := switch entries "only_new_issues" false }

/-- The settings of the report. -/
def reportOf (entries : Entries) : ReportSettings :=
  { format := (Toml.valueOf? entries "format").getD (.str "json")
    out := Toml.valueOf? entries "out" }

/-- The settings that the entries of a file give. -/
def ofEntries (file : Entries) : Except Misuse Settings := do
  let scan ← scanOf (← group file "scan")
  let gate ← group file "quality_gate"
  let report ← group file "report"
  return { scan, gate := gateOf gate, report := reportOf report }

/-- The settings in the text of a configuration file. -/
def readText (stack : Stack) (text : List Char) : Except LoadError Settings :=
  match stack.settings? text, Toml.read text with
  | some complaint, _ => .error (.tooDeep complaint)
  | none, .error e => .error (.malformed e text)
  | none, .ok file => (ofEntries file).mapError .misuse

/-- **The settings in a configuration file.** -/
def read (stack : Stack) (bytes : List UInt8) : Except LoadError Settings :=
  match Text.Utf8.decode bytes with
  | .error m => .error (.encoding m)
  | .ok text => readText stack text

/-- The configuration file that is used if it is there. -/
def defaultFile : String := "supersonar.toml"

/-- **The settings on a disk**: those of the file that is named, or else of the default file, if it
is there. -/
def load (stack : Stack) (disk : Disk) (file : Option String) : Except LoadError Settings :=
  let path := Path.ofString (file.getD defaultFile)
  match disk.seek path with
  | .error f => .error (.disk f)
  | .ok true =>
    match disk.bytes path with
    | .error f => .error (.disk f)
    | .ok bytes => read stack bytes
  | .ok false => if file.isSome then .error (.missing path) else .ok {}

end CodeAudit.Settings
