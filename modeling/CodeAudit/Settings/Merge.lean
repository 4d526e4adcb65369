import CodeAudit.Catalogue
import CodeAudit.CommandLine.Options
import CodeAudit.Settings.Basic

/-!
# Settings and the command line

The command line is stronger than the configuration file: an option replaces the setting, or where
the setting is a list, adds to it.
-/

namespace CodeAudit.Settings

open Toml (Value Misuse)
open CommandLine (ScanOptions)

/-- A list of values with more at its end, each value once. A list to which nothing is added stays
as it is. -/
def extend (own : List Value) (given : List String) : Except Misuse (List Value) :=
  if given.isEmpty then .ok own
  else do return Value.distinct (← (own ++ textValues given).mapM (·.single))

/-- A list of texts with more at its end, each text once. A list to which nothing is added stays as
it is. -/
def extendTexts (own given : List String) : List String :=
  if given.isEmpty then own else (own ++ given).eraseDups

/-- A text that is not empty. -/
def given? (text : Option String) : Option String := text.filter (· ≠ "")

/-- A setting, unless the command line gives a text for it. -/
def override (own : Option Value) (given : Option String) : Option Value :=
  match given? given with
  | some s => some (.str s)
  | none => own

/-- A setting, unless the command line gives a number for it. -/
def overrideInt (own : Option Value) (given : Option Int) : Option Value :=
  match given with
  | some n => some (.int n)
  | none => own

/-- The settings of a scan with what the command line says. -/
def mergeScan (o : ScanOptions) (s : ScanSettings) : Except Misuse ScanSettings := do
  let exclude ← extend s.exclude o.exclude
  let includeExtensions ← extend s.includeExtensions o.includeExt
  let includeFilenames ← extend s.includeFilenames o.includeFile
  return {
    exclude, includeExtensions, includeFilenames
    coverageXml := override s.coverageXml o.coverageXml
    maxFileSizeKb := o.maxFileSizeKb.getD s.maxFileSizeKb
    skipGenerated := s.skipGenerated && !o.includeGenerated
    enabledRules :=
      if o.enableRule.isEmpty then s.enabledRules
      else some (extendTexts (s.enabledRules.getD []) (o.enableRule.map Security.upperName))
    disabledRules := extendTexts s.disabledRules (o.disableRule.map Security.upperName)
    inlineIgnore := s.inlineIgnore && !o.noInlineIgnore
    securityOnly := s.securityOnly || o.securityOnly
    engine := (given? o.engine).getD s.engine
    externalScanner := (given? o.externalScanner).getD s.externalScanner
    externalConfigs := extendTexts s.externalConfigs o.externalConfig }

/-- The settings of the gate with what the command line says. -/
def mergeGate (o : ScanOptions) (s : GateSettings) : GateSettings :=
  { failOn := override s.failOn o.failOn
    maxIssues := overrideInt s.maxIssues o.maxIssues
    maxFilesWithIssues := overrideInt s.maxFilesWithIssues o.maxFilesWithIssues
    maxLow := overrideInt s.maxLow o.maxLow
    maxMedium := overrideInt s.maxMedium o.maxMedium
    maxHigh := overrideInt s.maxHigh o.maxHigh
    maxCritical := overrideInt s.maxCritical o.maxCritical
    minCoverage := (o.minCoverage.map Value.float).or s.minCoverage
    baselineReport := override s.baselineReport o.baselineReport
    onlyNewIssues := s.onlyNewIssues || o.gateNewOnly }

/-- The settings of the report with what the command line says. -/
def mergeReport (o : ScanOptions) (s : ReportSettings) : ReportSettings :=
  { format :=
      if o.pretty then .str "pretty"
      else match given? o.format with
        | some name => .str name
        | none => s.format
    out := override s.out o.out }

/-- **The settings with what the command line says.** -/
def merge (o : ScanOptions) (s : Settings) : Except Misuse Settings := do
  return { scan := ← mergeScan o s.scan, gate := mergeGate o s.gate
           report := mergeReport o s.report }

end CodeAudit.Settings
