import CodeAudit.CommandLine.Argument
import CodeAudit.CommandLine.Manual
import CodeAudit.Number.Read

/-!
# Options of a scan

The command line either asks for a scan with options, or ends the program at once: with a manual,
with the version, or with a complaint and the text on how to call it.
-/

namespace CodeAudit.CommandLine

/-- What the command line says about a scan. -/
structure ScanOptions where
  path : String := "."
  config : Option String := none
  exclude : List String := []
  includeExt : List String := []
  includeFile : List String := []
  enableRule : List String := []
  disableRule : List String := []
  securityOnly : Bool := false
  engine : Option String := none
  externalScanner : Option String := none
  externalConfig : List String := []
  noInlineIgnore : Bool := false
  includeGenerated : Bool := false
  maxFileSizeKb : Option Int := none
  format : Option String := none
  pretty : Bool := false
  /-- Whether progress is shown; without a choice a terminal decides. -/
  progress : Option Bool := none
  out : Option String := none
  failOn : Option String := none
  maxIssues : Option Int := none
  maxFilesWithIssues : Option Int := none
  maxLow : Option Int := none
  maxMedium : Option Int := none
  maxHigh : Option Int := none
  maxCritical : Option Int := none
  coverageXml : Option String := none
  minCoverage : Option Float := none
  baselineReport : Option String := none
  gateNewOnly : Bool := false
  deriving Repr

/-- An end of the program before any work. -/
structure Stop where
  code : Nat
  output : String := ""
  errors : String := ""
  deriving Repr, DecidableEq

/-- A complaint about the command line. -/
def complaint (usage program message : String) : Stop :=
  ⟨2, "", usage ++ s!"{program}: error: {message}\n"⟩

/-! ## Values -/

/-- Why the value of an option will not do. -/
inductive ValueFault where
  | notInt (text : String)
  | notFloat (text : String)
  | notChoice (text : String) (choices : List String)
  | notAllowedWith (title : String)

/-- The text of a fault. -/
def ValueFault.message : ValueFault → String
  | notInt text => s!"invalid int value: {Text.quotedString text}"
  | notFloat text => s!"invalid float value: {Text.quotedString text}"
  | notChoice text choices =>
    let choices := ", ".intercalate (choices.map Text.quotedString)
    s!"invalid choice: {Text.quotedString text} (choose from {choices})"
  | notAllowedWith title => s!"not allowed with argument {title}"

/-- A whole number. -/
def intValue (text : String) : Except ValueFault Int :=
  match Number.readInt text.toList with
  | .ok n => .ok n
  | .error _ => .error (.notInt text)

/-- A decimal. -/
def floatValue (text : String) : Except ValueFault Float :=
  match Number.readFloat? text.toList with
  | some x => .ok x
  | none => .error (.notFloat text)

/-- One of some texts. -/
def choiceValue (choices : List String) (text : String) : Except ValueFault String :=
  if choices.contains text then .ok text else .error (.notChoice text choices)

/-! ## The options -/

/-- The options of a scan. -/
inductive ScanFlag where
  | help | config | exclude | includeExt | includeFile | enableRule | disableRule | securityOnly
  | engine | externalScanner | externalConfig | noInlineIgnore | includeGenerated | maxFileSizeKb
  | format | pretty | progress | noProgress | out | failOn | maxIssues | maxFilesWithIssues
  | maxLow | maxMedium | maxHigh | maxCritical | coverageXml | minCoverage | baselineReport
  | gateNewOnly
  deriving Repr, DecidableEq

/-- The options of a scan, in the order of the manual. -/
def scanFlags : List (Flag ScanFlag) :=
  [⟨.help, ["-h", "--help"], false⟩, ⟨.config, ["--config"], true⟩,
   ⟨.exclude, ["--exclude"], true⟩, ⟨.includeExt, ["--include-ext"], true⟩,
   ⟨.includeFile, ["--include-file"], true⟩, ⟨.enableRule, ["--enable-rule"], true⟩,
   ⟨.disableRule, ["--disable-rule"], true⟩, ⟨.securityOnly, ["--security-only"], false⟩,
   ⟨.engine, ["--engine"], true⟩, ⟨.externalScanner, ["--semgrep-bin"], true⟩,
   ⟨.externalConfig, ["--semgrep-config"], true⟩,
   ⟨.noInlineIgnore, ["--no-inline-ignore"], false⟩,
   ⟨.includeGenerated, ["--include-generated"], false⟩,
   ⟨.maxFileSizeKb, ["--max-file-size-kb"], true⟩, ⟨.format, ["--format"], true⟩,
   ⟨.pretty, ["--pretty"], false⟩, ⟨.progress, ["--progress"], false⟩,
   ⟨.noProgress, ["--no-progress"], false⟩, ⟨.out, ["--out"], true⟩,
   ⟨.failOn, ["--fail-on"], true⟩, ⟨.maxIssues, ["--max-issues"], true⟩,
   ⟨.maxFilesWithIssues, ["--max-files-with-issues"], true⟩, ⟨.maxLow, ["--max-low"], true⟩,
   ⟨.maxMedium, ["--max-medium"], true⟩, ⟨.maxHigh, ["--max-high"], true⟩,
   ⟨.maxCritical, ["--max-critical"], true⟩, ⟨.coverageXml, ["--coverage-xml"], true⟩,
   ⟨.minCoverage, ["--min-coverage"], true⟩, ⟨.baselineReport, ["--baseline-report"], true⟩,
   ⟨.gateNewOnly, ["--gate-new-only"], false⟩]

/-- Turns progress on or off; it cannot be both. -/
def setProgress (o : ScanOptions) (shown : Bool) (other : String) :
    Except ValueFault ScanOptions :=
  if o.progress = some (!shown) then .error (.notAllowedWith other)
  else .ok { o with progress := some shown }

/-- The options after one more. A list gets one more entry, other options are set anew. -/
def ScanOptions.set (o : ScanOptions) (flag : ScanFlag) (value : String) :
    Except ValueFault ScanOptions :=
  match flag with
  | .help => return o
  | .config => return { o with config := some value }
  | .exclude => return { o with exclude := o.exclude ++ [value] }
  | .includeExt => return { o with includeExt := o.includeExt ++ [value] }
  | .includeFile => return { o with includeFile := o.includeFile ++ [value] }
  | .enableRule => return { o with enableRule := o.enableRule ++ [value] }
  | .disableRule => return { o with disableRule := o.disableRule ++ [value] }
  | .securityOnly => return { o with securityOnly := true }
  | .engine => do
    return { o with engine := some (← choiceValue ["internal", "semgrep", "hybrid"] value) }
  | .externalScanner => return { o with externalScanner := some value }
  | .externalConfig => return { o with externalConfig := o.externalConfig ++ [value] }
  | .noInlineIgnore => return { o with noInlineIgnore := true }
  | .includeGenerated => return { o with includeGenerated := true }
  | .maxFileSizeKb => do return { o with maxFileSizeKb := some (← intValue value) }
  | .format => do return { o with format := some (← choiceValue ["json", "sarif", "pretty"] value) }
  | .pretty => return { o with pretty := true }
  | .progress => setProgress o true "--no-progress"
  | .noProgress => setProgress o false "--progress"
  | .out => return { o with out := some value }
  | .failOn => do
    return { o with failOn := some (← choiceValue ["low", "medium", "high", "critical"] value) }
  | .maxIssues => do return { o with maxIssues := some (← intValue value) }
  | .maxFilesWithIssues => do return { o with maxFilesWithIssues := some (← intValue value) }
  | .maxLow => do return { o with maxLow := some (← intValue value) }
  | .maxMedium => do return { o with maxMedium := some (← intValue value) }
  | .maxHigh => do return { o with maxHigh := some (← intValue value) }
  | .maxCritical => do return { o with maxCritical := some (← intValue value) }
  | .coverageXml => return { o with coverageXml := some value }
  | .minCoverage => do return { o with minCoverage := some (← floatValue value) }
  | .baselineReport => return { o with baselineReport := some value }
  | .gateNewOnly => return { o with gateNewOnly := true }

/-! ## The commands -/

/-- A complaint about a scan. -/
def scanComplaint (message : String) : Stop := complaint scanUsage "supersonar scan" message

/-- What the items of a scan's arguments make of its options, with the arguments that have no
place. -/
def scanItems : List (Item ScanFlag) → ScanOptions → Except Stop (ScanOptions × List String)
  | [], o => .ok (o, [])
  | .option .help _ _ :: _, _ => .error ⟨0, scanManual, ""⟩
  | .option flag title value :: rest, o =>
    match o.set flag value with
    | .ok o => scanItems rest o
    | .error fault => .error (scanComplaint s!"argument {title}: {fault.message}")
  | .plain arguments :: rest, o =>
    -- The first pair of dashes only divides.
    match arguments.erase "--" with
    | [] => scanItems rest o
    | path :: _ => scanItems rest { o with path }
  | .extra text :: rest, o => do
    let (o, extras) ← scanItems rest o
    return (o, text :: extras)

/-- Reads the arguments of a scan. -/
def scanOptions (arguments : List String) : Except Stop (ScanOptions × List String) := do
  let (items, fault) := read scanFlags .atMostOne arguments
  let found ← scanItems items {}
  match fault with
  | some fault => .error (scanComplaint fault.message)
  | none => return found

/-- The options of the program itself. -/
inductive ProgramFlag where
  | help
  | version
  deriving Repr, DecidableEq

/-- The options of the program itself, in the order of the manual. -/
def programFlags : List (Flag ProgramFlag) :=
  [⟨.help, ["-h", "--help"], false⟩, ⟨.version, ["--version"], false⟩]

/-- A complaint about the program's own arguments. -/
def programComplaint (message : String) : Stop := complaint usage "supersonar" message

/-- Reads a command with its arguments. -/
def command : List String → Except Stop (ScanOptions × List String)
  | "scan" :: arguments => scanOptions arguments
  | name =>
    let fault := ValueFault.notChoice (name.headD "") ["scan"]
    .error (programComplaint s!"argument command: {fault.message}")

/-- What the items of the program's arguments ask for, with the arguments that have no place. -/
def programItems : List (Item ProgramFlag) → Except Stop (Option ScanOptions × List String)
  | [] => .ok (none, [])
  | .option .help _ _ :: _ => .error ⟨0, manual, ""⟩
  | .option .version _ _ :: _ => .error ⟨0, versionText ++ "\n", ""⟩
  | .plain arguments :: rest => do
    let (o, extras) ← command arguments
    let (_, more) ← programItems rest
    return (some o, more ++ extras)
  | .extra text :: rest => do
    let (o, extras) ← programItems rest
    return (o, text :: extras)

/-- **Reads the command line.** -/
def options (arguments : List String) : Except Stop ScanOptions := do
  let (items, fault) := read programFlags .withRest arguments
  let (found, extras) ← programItems items
  match fault, found with
  | some fault, _ => .error (programComplaint fault.message)
  | none, none => .error (programComplaint "the following arguments are required: command")
  | none, some o =>
    if extras.isEmpty then return o
    else .error (programComplaint ("unrecognized arguments: " ++ " ".intercalate extras))

end CodeAudit.CommandLine
