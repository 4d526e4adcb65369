import CodeAudit.External.Scan
import CodeAudit.Rounds.Checkpoint

/-!
# A round

A round starts the programs that measure, reads what they report, records a checkpoint, and prints
what it found. What the programs answer and what the clock shows is given.
-/

namespace CodeAudit.Rounds

/-- What the start of a program leads to. -/
inductive Answer where
  | reply (r : External.Reply)
  /-- The program cannot be started. -/
  | refused (reason : String)

/-- What a round works in. The current folder of the disk stands for the home of rounds. -/
structure Bench where
  disk : Disk
  /-- How the interpreter is called. -/
  interpreter : String
  coverageRunner : Answer
  timeRunner : Answer
  changes : Answer
  checkRunner : Answer
  /-- The clock before and after the coverage is measured. -/
  before : Float
  after : Float
  now : Float

/-- A start of a program. -/
structure Start where
  command : List String
  folder : Option String
  /-- After how many seconds it is stopped. -/
  limit : Option Nat

/-- Why a program's report is missing. -/
inductive RunnerFault where
  | refused (reason : String)
  | malformed (e : Json.ReadError) (text : List Char)
  | misuse (m : Misuse)

/-- The kind and the text of a fault. -/
def RunnerFault.describe : RunnerFault → String × String
  | refused reason => ("OSError", reason)
  | malformed (.fault f) text => ("JSONDecodeError", f.message text)
  | malformed e text => ("ValueError", e.message text)
  | misuse m => (m.kind, m.message)

/-- A fault that a round breaks off with. -/
inductive Crash where
  | refused (reason : String)
  | disk (f : Disk.Fault)
  | encoding (m : Text.Utf8.Malformed)
  | malformed (e : Json.ReadError) (text : List Char)
  | misuse (m : Misuse)

/-- How a round ends. -/
inductive Ending where
  | exit (code : Int)
  | crash (c : Crash)

/-- What a round leaves. -/
structure Outcome where
  ending : Ending
  output : String := ""
  errors : String := ""
  starts : List Start := []
  disk : Disk

/-! ## Files and programs -/

/-- A file in the home of rounds. -/
def homeFile (name : String) : String := (home.join (Path.ofString name)).toString

/-- The report on the coverage. -/
def coverageFile : String := "_pti_coverage.json"

/-- The benchmarks. -/
def benchFile : String := "microbench.py"

/-- The checkpoints. -/
def checkpointFile : String := ".pti_checkpoint.jsonl"

/-- The program that measures times. -/
def timeProgram : String := "_pti_repotime.py"

/-- The program that checks the benchmarks. -/
def checkProgram : String := "_pti_semcheck.py"

/-- Files that do not count for the coverage. -/
def uncounted : List String :=
  ["*/microbench.py", "*/_pti_*.py", "*/setup.py", "*/conftest.py", "*/test_*.py", "*/*_test.py",
   "*/tests/*", "*/test/*", "*/__tests__/*", "*/__fixtures__/*", "*/_version.py"]

/-- The start of the program that measures the coverage. -/
def coverageStart (b : Bench) : Start :=
  ⟨[b.interpreter, homeFile "_pti_cov_runner.py", home.toString, "microbench",
    homeFile coverageFile, (Json.arr (uncounted.map .str)).compact], some home.toString, none⟩

/-- The start of the program that measures times. -/
def timeStart (b : Bench) : Start :=
  ⟨[b.interpreter, homeFile timeProgram], some home.toString, some 120⟩

/-- The start of the program that lists changes. -/
def changesStart : Start :=
  ⟨["git", "-C", home.toString, "status", "--porcelain", "--", ".", ":!microbench.py", ":!_pti_*",
    ":!.pti_*", ":!.coverage"], none, some 30⟩

/-- The start of the program that checks the benchmarks. -/
def checkStart (b : Bench) : Start :=
  ⟨[b.interpreter, homeFile checkProgram], some home.toString, some 300⟩

/-- Whether a file is there. -/
def Bench.has (b : Bench) (name : String) : Bool := b.disk.exists? (Path.ofString name)

/-- The last line of a program's output; none if the output is blank. -/
def lastLine (output : String) : Option (List Char) :=
  if (Text.trim output.toList).isEmpty then none else (Text.splitLines output.toList).getLast?

/-- What a program reports: what it complains of, and what is made of the last line of its output. A
program that prints nothing reports nothing. -/
def reportOf {α : Type} (answer : Answer) (nothing : α) (use : Json → Except Misuse α) :
    String × Except RunnerFault α :=
  match answer with
  | .refused reason => ("", .error (.refused reason))
  | .reply r =>
    (r.errors, match lastLine r.output with
      | none => .ok nothing
      | some line =>
        match Json.read line with
        | .error e => .error (.malformed e line)
        | .ok report => (use report).mapError .misuse)

/-- What is left of a report: its content, or what it gives way to with a complaint. -/
def orComplain {α : Type} (runner : String) (nothing : α) (r : String × Except RunnerFault α) :
    α × String :=
  match r with
  | (errors, .ok a) => (a, errors)
  | (errors, .error f) =>
    let (kind, message) := f.describe
    (nothing, errors ++ s!"[{runner} runner: {kind}: {message}]\n")

/-- The files that are changed. -/
def changedFiles (answer : Answer) : List String :=
  match answer with
  | .refused _ => []
  | .reply r =>
    ((Text.splitLines r.output.toList).filter fun l => !(Text.trim l).isEmpty).map fun l =>
      String.ofList (l.drop 3)

/-- What the definition of a benchmark starts with. -/
def benchHead : List Char := "def bench_".toList

/-- Whether a text starts with the definition of a benchmark: the rest of its name, and behind it a
bracket, with blanks between or not. -/
def startsBench (text : List Char) : Bool :=
  let tail := text.drop benchHead.length
  benchHead.isPrefixOf text && (tail.head?.any Text.isWord) &&
    ((tail.dropWhile Text.isWord).dropWhile Text.isBlank).head? == some '('

/-- The number of benchmarks in a text: the definitions at its margin. -/
def benchCount (text : List Char) : Nat := go true text
where
  /-- Goes on at the margin or within a line. -/
  go (margin : Bool) : List Char → Nat
    | [] => 0
    | c :: rest => (margin && startsBench (c :: rest)).toNat + go (c == '\n') rest

/-! ## The report of a round -/

/-- The greatest number of failed benchmarks that are named. -/
def maxBenchErrors : Nat := 8

/-- A value as it is printed. -/
def plainText : Json → String
  | .str s => s
  | j => j.compact

/-- The failed benchmarks, line by line; or the lines up to a fault, and the fault. -/
def benchErrorLines (errors : Json) : List String × Option Misuse :=
  if !isSet errors then ([], none)
  else match errorCount errors with
    | .error m => ([], some m)
    | .ok n =>
      let title := ["", s!"{n} bench error(s):"]
      match errors with
      | .obj members =>
        (title ++ (members.take maxBenchErrors).map fun (name, j) =>
          s!"  {name}: {plainText j}", none)
      | j => (title, some (.lacks j "items"))

/-- The last line of a round. -/
def Round.footer (r : Round) (number : Nat) : String :=
  let percent := Number.fixed 1 r.coverage.percent
  let seconds := Number.fixed 1 r.seconds
  let below := match r.times.below? with
    | some n => s!", {n}/{r.times.measured.length} below repo_time 45%"
    | none => ""
  let checks := if r.verdicts.isEmpty then ""
    else s!", {fixCount r.verdicts}/{r.verdicts.length} not self-checking"
  s!"[round {number}: {r.benches} benches, {percent}% covered{below}{checks}, " ++
    s!"measured in {seconds}s]"

/-- Lines of text. -/
def textOfLines (lines : List String) : String := String.join (lines.map (· ++ "\n"))

/-- The text of a round after its table and its failed benchmarks. -/
def Round.findings (r : Round) (modified : List String) (number : Nat) (counts : List Int) :
    List String :=
  r.times.lines ++ modifiedLines modified ++ verdictLines r.verdicts ++ ["", r.footer number] ++
    match r.stop? counts with
    | some reason =>
      ["", s!">>> STOP: repo_time converged ({reason}). Finalize microbench.py now. <<<"]
    | none => []

/-! ## The round -/

/-- The text of a file in the home of rounds; empty if it is missing or cannot be read. -/
def Bench.textOf (b : Bench) (name : String) : List Char :=
  match b.disk.textBytes (Path.ofString name) with
  | .ok bytes => Text.unifyNewlines (Text.Utf8.decodeReplacing bytes)
  | .error _ => []

/-- The report on the coverage. -/
def readCoverage (bytes : List UInt8) : Except Crash RoundCoverage :=
  match Text.Utf8.decode bytes with
  | .error m => .error (.encoding m)
  | .ok text =>
    let text := Text.unifyNewlines text
    match Json.read text with
    | .error e => .error (.malformed e text)
    | .ok report => (roundCoverage report).mapError .misuse

/-- The coverage that a round finds. -/
def Bench.coverage (b : Bench) : Except Crash RoundCoverage :=
  match b.disk.textBytes (Path.ofString coverageFile) with
  | .error f => .error (.disk f)
  | .ok bytes => readCoverage bytes

/-- The disk with a line more in the file of checkpoints. -/
def Bench.append (b : Bench) (line : String) : Disk :=
  let path := Path.ofString checkpointFile
  let old := ((b.disk.bytes path).toOption).getD []
  ((b.disk.writeBytes path (old ++ Text.Utf8.encode line.toList)).toOption).getD b.disk

/-- A round whose coverage is known. -/
def Bench.proceed (b : Bench) (coverage : RoundCoverage) (errors : String) : Outcome :=
  let (times, timeErrors) := if b.has timeProgram then
      orComplain "repotime" {} (reportOf b.timeRunner {} RepoTimes.ofReport)
    else ({}, "")
  let modified := if b.has checkProgram then changedFiles b.changes else []
  let (verdicts, checkErrors) := if b.has checkProgram then
      orComplain "semcheck" [] (reportOf b.checkRunner [] (verdictsOf (!modified.isEmpty)))
    else ([], "")
  let starts := coverageStart b ::
    ((if b.has timeProgram then [timeStart b] else []) ++
      (if b.has checkProgram then [changesStart, checkStart b] else []))
  let round : Round :=
    { coverage, times, verdicts, benches := benchCount (b.textOf benchFile)
      seconds := b.after - b.before, now := b.now }
  let past := b.textOf checkpointFile
  let disk := match round.checkpoint? past with
    | some line => b.append line
    | none => b.disk
  let errors := errors ++ timeErrors ++ checkErrors
  match benchErrorLines coverage.benchErrors with
  | (lines, some m) =>
    { ending := .crash (.misuse m), output := textOfLines (coverage.table ++ lines), errors, starts
      disk }
  | (lines, none) =>
    let counts := (History.read (filledLines past)).counts
    { ending := .exit 0
      output := textOfLines (coverage.table ++ lines ++
        round.findings modified (roundNumber past) counts)
      errors, starts, disk }

/-- **A round.** -/
def Bench.run (b : Bench) : Outcome :=
  let starts := [coverageStart b]
  match b.coverageRunner with
  | .refused reason => { ending := .crash (.refused reason), starts, disk := b.disk }
  | .reply r =>
    if r.code ≠ 0 || !b.has coverageFile then
      { ending := .exit (if r.code = 0 then 1 else r.code)
        output := s!"coverage measurement failed (exit {r.code})\n" ++ r.output ++ "\n"
        errors := r.errors, starts, disk := b.disk }
    else match b.coverage with
      | .error c => { ending := .crash c, errors := r.errors, starts, disk := b.disk }
      | .ok coverage => b.proceed coverage r.errors

end CodeAudit.Rounds
