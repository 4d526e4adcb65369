import CodeAudit.Baseline
import CodeAudit.CoverageFile
import CodeAudit.External.Scan
import CodeAudit.Gate
import CodeAudit.Progress
import CodeAudit.Report.Format
import CodeAudit.Settings.Load
import CodeAudit.Settings.Merge

/-!
# Benchmarks

A benchmark runs one part of the library on made input of a given size and tells what came out, so
that runs can be compared. Benchmarks keep nothing: every run of one tells the same.
-/

namespace CodeAudit.Benchmark

/-! ## Issues and conditions for benchmarks -/

/-- The item of a list at a place, where the list starts over at its end. -/
def cycled {α : Type} (first : α) (rest : List α) (i : Nat) : α :=
  (first :: rest).getD (i % (rest.length + 1)) first

/-- The rule of the `i`-th issue; the last one is a rule of the external scanner. -/
def ruleAt : Nat → String := cycled "SS001" ["SS003", "SS101", "SS210", "SS306", "SG:demo.rule"]

/-- The severity of the `i`-th issue. -/
def severityAt : Nat → Severity := cycled .low [.medium, .high, .critical]

/-- The number of files of each kind that issues are spread over. -/
def spreadFiles : Nat := 25

/-- The ending of the `i`-th issue's file; there is none for a container recipe. -/
def endingAt : Nat → Option String :=
  cycled (some "py") [some "java", some "kt", some "go", some "ts", some "yaml", none, some "rs"]

/-- The file of the `i`-th issue. -/
def fileAt (i : Nat) : String :=
  match endingAt i with
  | some ending => s!"src/file{i % spreadFiles}.{ending}"
  | none => "src/Dockerfile"

/-- The number of lines that issues are spread over. -/
def spreadLines : Nat := 300

/-- The number of columns that issues are spread over. -/
def spreadColumns : Nat := 80

/-- The `i`-th issue. -/
def issueAt (i : Nat) : Issue where
  ruleId := ruleAt i
  title := s!"t{i}"
  severity := severityAt i
  message := s!"m{i}"
  filePath := fileAt i
  line := (i % spreadLines + 1 : Nat)
  column := (i % spreadColumns + 1 : Nat)

/-- **Issues of many rules, severities and files.** -/
def issues (count : Nat) : List Issue := (List.range count).map issueAt

/-- A text several times in a row. -/
def repeated (text : String) (times : Nat) : String := String.join (List.replicate times text)

/-- **Conditions within conditions**, each a step deeper, around a return. -/
def nestedConditions (depth : Nat) (step : String) : String :=
  String.join ((List.range depth).map fun k => repeated step (k + 1) ++ s!"if v{k}:\n") ++
    repeated step (depth + 1) ++ "return 1\n"

/-! ## Benchmarks -/

/-- A number as a value. -/
def count (n : Nat) : Json := .int n

/-- Texts as a value. -/
def texts (list : List String) : Json := .arr (list.map .str)

/-! ## The gate -/

/-- A coverage in percent. -/
def covered (rate : Float) : Coverage := ⟨.real rate, none, none⟩

/-- Limits that nearly every result breaks, limits that few break, and one on coverage alone. -/
def limitSets : List Limits :=
  [{ failOn := some .low, maxIssues := some (.whole 0), maxFilesWithIssues := some (.whole 0)
     maxLow := some (.whole 0), maxMedium := some (.whole 0), maxHigh := some (.whole 0)
     maxCritical := some (.whole 0), minCoverage := some (.real 95.0) },
   { failOn := some .critical, minCoverage := some (.real 10.0) },
   { minCoverage := some (.real 50.0) }]

/-- Whether a result passes, and the reasons if not. -/
def verdict (limits : Limits) (result : ScanResult) : Except Gate.Fault Json := do
  let reasons ← Gate.reasons limits result
  return .arr [.bool reasons.isEmpty, texts reasons]

/-- **The gate**: each set of limits on a result with coverage and on one without. -/
def gate (size : Nat) : Except Gate.Fault Json := do
  let issues := issues size
  let results := [⟨issues, 10, some (covered 0.42)⟩, ⟨issues, 10, none⟩]
  return .arr (← limitSets.flatMapM fun limits => results.mapM (verdict limits))

/-! ## Reports -/

/-- The items of a member of an object. -/
def itemsAt (j : Json) (name : String) : List Json := ((j.get? name).bind Json.items?).getD []

/-- The results in a SARIF report. -/
def runResults (j : Json) : List Json := (itemsAt j "runs").flatMap (itemsAt · "results")

/-- Severities with their levels; the last one is unknown. -/
def severities : List Severity := [.low, .medium, .high, .critical, .other "unknown"]

/-- Paths of every language. -/
def paths : List String :=
  ["a.py", "A.java", "a.kt", "a.go", "a.tsx", "a.yml", "Dockerfile", "app/Dockerfile",
   "app.dockerfile", "a.rs"]

/-- A result with coverage. -/
def fullResult (size : Nat) : ScanResult := ⟨issues size, 42, some (covered 0.8123)⟩

/-- The length of the readable report. -/
def prettyLength (r : ScanResult) : Json := count (Report.render .pretty r).length

/-- **Reports**: the issues in each, the lengths of the readable one with and without coverage, and
the names of levels and languages. -/
def reports (size : Nat) : Json :=
  let full := fullResult size
  let plain := { full with coverage := none }
  .arr [count (itemsAt (Report.data full) "issues").length,
    count (itemsAt (Report.data plain) "issues").length,
    count (runResults (Report.sarif full)).length, count (runResults (Report.sarif plain)).length,
    prettyLength full, prettyLength plain, texts (severities.map Report.level),
    texts (paths.map fun p => (Language.ofPath p).name)]

/-! ## Baselines -/

/-- The number of issues that are known of some. -/
def knownOf (size : Nat) : Nat := min size (max 50 (size / 8))

/-- Whether a report cannot serve as a baseline. -/
def isRefused (report : Json) : Bool := (Baseline.fingerprints report).toOption.isNone

/-- **Baselines**: what is known, new and matched against a report of some of the issues, then new
and matched against an empty one, and the number of reports that are refused. -/
def baseline (size : Nat) : Except Baseline.Fault Json := do
  let result : ScanResult := ⟨issues size, 10, none⟩
  let earlier : ScanResult := { result with issues := issues (knownOf size) }
  let known ← Baseline.fingerprints (Report.data earlier)
  let (new, matched) := Baseline.newIssues result known
  let (all, met) := Baseline.newIssues result []
  let refused := [Json.arr [], .obj []].filter isRefused
  return .arr ([known.length, new.issues.length, matched, all.issues.length, met,
    refused.length].map count)

/-! ## The external scanner -/

/-- The `i`-th finding. -/
def findingAt (i : Nat) : Json :=
  .obj [("check_id", .str s!"demo.rule{i}"), ("path", .str s!"src/file{i}.py"),
    ("start", .obj [("line", count (i + 1)), ("col", count 1)]),
    ("extra", .obj [("message", .str s!"m{i}"), ("severity", .str "ERROR")])]

/-- Findings that leave out what has a substitute, or give coordinates of other kinds. -/
def sparseFindings : List Json :=
  [.obj [("check_id", .str "demo.plain"), ("path", .str "a.py")],
   .obj [("check_id", .str "demo.real"), ("path", .str "b.py"),
     ("start", .obj [("line", .float 2.5), ("col", .float 3.5)])],
   .obj [("check_id", .str "demo.text"), ("path", .str "c.py"),
     ("start", .obj [("line", .str "4"), ("col", .null)])]]

/-- A folder with a file that stands for the external scanner. -/
def scannerDisk : Disk :=
  ⟨.folder [("work", .folder [("a.py", .file ⟨[], true⟩), ("scanner", .file ⟨[], true⟩)])],
    Path.ofString "/work"⟩

/-- What a scan with the external scanner finds. -/
def findingsOf (root scanner : String) (machine : External.Machine) :
    Except External.Fault (List Issue) :=
  (External.scan scannerDisk machine (Path.ofString root) { scanner }).2

/-- Replies and scanners with which a scan fails. -/
def failingScans : List (String × External.Machine) :=
  [("./missing", {}),
   ("semgrep", { installed := false }),
   ("./scanner", { reply := { errors := "broken", code := 2 } }),
   ("./scanner", { reply := { code := 2 } }),
   ("./scanner", { reply := { output := "no report" } }),
   ("./scanner", { reply :=
     { output := "\x7b\"errors\": [\x7b\"message\": \"broken\"\x7d]\x7d", code := 2 } })]

/-- Names of severities; the last one is missing. -/
def severityNames : List (Option String) :=
  ["INFO", "WARNING", "ERROR", "CRITICAL", "LOW", "MEDIUM", "HIGH", "INVENTORY", "EXPERIMENT",
   ""].map some ++ [none]

/-- **The external scanner**: the findings in a folder, in a file and by a scanner that is looked
up, names of severities, texts, a scan that finds nothing, and the number of scans that fail. -/
def external (size : Nat) : Except External.Fault Json := do
  let report := Json.obj [("results", .arr ((List.range size).map findingAt ++ sparseFindings))]
  let machine : External.Machine := { reply := { output := report.indented } }
  let inFolder ← findingsOf "/work" "./scanner" machine
  let inFile ← findingsOf "/work/a.py" "./scanner" machine
  let lookedUp ← findingsOf "/work" "semgrep" machine
  let nothing ← findingsOf "/work" "./scanner" {}
  let failed := failingScans.filter fun (scanner, machine) =>
    (findingsOf "/work" scanner machine).toOption.isNone
  let shown := [Json.str " x ", .str "", .null, .int 3].map fun j =>
    ((External.text? j).map Json.str).getD .null
  return .arr [count inFolder.length, count inFile.length, count lookedUp.length,
    texts (severityNames.map fun n => (External.severity n).name), .arr shown,
    count nothing.length, count failed.length]

/-! ## The parts of a run -/

/-- An optional text as a value. -/
def text? (t : Option String) : Json := (t.map Json.str).getD .null

/-- The number of things in an optional list. -/
def size? {α : Type} (list : Option (List α)) : Json :=
  (list.map fun l => count l.length).getD .null

/-- The engine of settings that may be missing. -/
def engine? {ε : Type} (s : Except ε Settings) : Json :=
  text? (s.toOption.map (·.scan.engine))

/-- Settings in which every limit is out of range. -/
def unsound : Settings :=
  let below := some (Toml.Value.int (-1))
  { gate := { maxIssues := below, maxFilesWithIssues := below, maxLow := below, maxMedium := below
              maxHigh := below, maxCritical := below, minCoverage := below } }

/-- Paths with the number of characters that they may take. -/
def longPaths : List (String × Int) :=
  [(repeated "x" 60 ++ "/f.py", 40), ("ab", 40), ("src/f.py", 2)]

/-- Every way to choose about progress away from a terminal, and the streams that cannot tell. -/
def displays : List Bool :=
  [some true, some false, none].map (Progress.isWanted · StreamKind.plain.isTerminal) ++
    [StreamKind.unaware, .failing].map (·.isTerminal)

/-- A text as a file. -/
def fileOf (text : String) : FileTree := .file { bytes := Text.Utf8.encode text.toList }

/-- A folder with settings and coverage files. -/
def settingsDisk : Disk :=
  ⟨.folder [
    ("settings.toml", fileOf "[scan]\nexclude = [\"vendor\"]\n"),
    ("share.xml", fileOf "<coverage line-rate=\"0.8123\"/>"),
    ("counts.xml", fileOf "<coverage lines-covered=\"8\" lines-valid=\"10\"/>"),
    ("empty.xml", fileOf "<coverage/>")], Path.ofString "/"⟩

/-- The coverage that a file tells. -/
def coverageIn (name : String) : Option Coverage :=
  (CoverageFile.load settingsDisk (Path.ofString name)).toOption

/-- The share of covered lines that a file tells. -/
def shareIn (name : String) : Json :=
  ((coverageIn name).map fun c => Json.float c.lineRate.toFloat).getD .null

/-- The number of settings and coverage files that cannot be used. -/
def unusable : Nat :=
  [(Settings.load .usual settingsDisk (some "missing.toml")).toOption.isNone,
   (coverageIn "missing.xml").isNone, (coverageIn "empty.xml").isNone].count true

/-- **The parts of a run**: merged settings and what is wrong with sound and unsound ones, shortened
paths, displays, the three reports, rules of security, and the files that a run reads. -/
def helpers (size : Nat) : Json :=
  let full := fullResult size
  .arr [engine? (Settings.merge {} {}),
    size? (Settings.problems {}).toOption, size? unsound.problems.toOption,
    texts (longPaths.map fun (path, limit) =>
      String.ofList (Progress.shortened path.toList limit)),
    .arr (displays.map .bool),
    count (itemsAt (Report.data full) "issues").length,
    count (runResults (Report.sarif full)).length, prettyLength full,
    .arr (["SS001", "SG:demo.rule", "SS210"].map fun r => .bool (Security.isSecurityRule r)),
    .arr [size? (Security.enabledRules none false), size? (Security.enabledRules none true),
      size? (Security.enabledRules (some ["SS001", "SG:demo.rule", "SS210"]) true)],
    engine? (Settings.load .usual settingsDisk none),
    engine? (Settings.load .usual settingsDisk (some "settings.toml")), count unusable,
    shareIn "share.xml", shareIn "counts.xml"]

end CodeAudit.Benchmark
