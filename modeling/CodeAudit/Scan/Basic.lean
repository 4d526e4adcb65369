import CodeAudit.Checks.Analyser
import CodeAudit.External.Scan
import CodeAudit.Scan.Selection
import CodeAudit.Scan.Suppression

/-!
# Scans

A scan runs the built-in checks over the files that are wanted, or the external scanner, or both,
and puts the issues together: each once, in the order of their places.
-/

namespace CodeAudit.Scan

/-- What finds the issues. -/
inductive Engine where
  | builtIn
  | external
  | hybrid
  deriving Repr, DecidableEq

/-- The engine with a name, in any case. -/
def Engine.ofName? (name : String) : Option Engine :=
  let name := String.ofList (Text.lower name.toList)
  if name = "internal" then some builtIn
  else if name = "semgrep" then some external
  else if name = "hybrid" then some hybrid
  else none

/-- Whether the built-in checks run. -/
def Engine.runsChecks (e : Engine) : Bool := e ≠ external

/-- Whether the external scanner runs. -/
def Engine.runsExternal (e : Engine) : Bool := e ≠ builtIn

/-- What is to be scanned, and how. -/
structure Plan where
  root : Path
  choice : Choice
  enabledRules : Option (List String) := none
  disabledRules : List String := []
  inlineIgnore : Bool := true
  securityOnly : Bool := false
  /-- The name of the engine. -/
  engine : String := "internal"
  external : External.Request := {}
  deriving Repr

/-- A file that is done: its number, the number of all files, and its path. -/
structure Step where
  index : Nat
  total : Nat
  path : String
  deriving Repr, DecidableEq

/-- Why a scan has no result. -/
inductive Fault where
  | noRoot (root : Path)
  | unknownEngine (name : String)
  | overflow (o : Overflow)
  | external (f : External.Fault)

/-- The text of a fault. -/
def Fault.message : Fault → String
  | noRoot root => s!"Scan path not found: {root}"
  | unknownEngine name =>
    s!"Unsupported scan engine: {name}. Expected one of: hybrid, internal, semgrep"
  | overflow o => o.message
  | external f => f.message

/-! ## Putting issues together -/

/-- Adds an issue. One that is there already is replaced at its place. -/
def addIssue (known : List Issue) (i : Issue) : List Issue :=
  if known.any (·.fingerprint.same i.fingerprint) then
    known.map fun k => if k.fingerprint.same i.fingerprint then i else k
  else known ++ [i]

/-- Whether an issue may stand before another: by file, then line, then column, then rule. -/
def inOrder (a b : Issue) : Bool :=
  if a.filePath ≠ b.filePath then a.filePath < b.filePath
  else if a.line.value ≠ b.line.value then a.line.value < b.line.value
  else if a.column.value ≠ b.column.value then a.column.value < b.column.value
  else !(b.ruleId < a.ruleId)

/-- **Each issue once, in the order of their places.** Of issues that cannot be told apart the last
counts, at the place of the first. -/
def dedupe (issues : List Issue) : List Issue := (issues.foldl addIssue []).mergeSort inOrder

/-! ## The built-in checks -/

/-- The text of a file that may hold anything. -/
def textOf (bytes : List UInt8) : List Char :=
  Text.unifyNewlines (Text.Utf8.decodeReplacing bytes)

/-- Names in upper case; no names at all stand for every one. -/
def selection? (names : Option (List String)) : Option (List String) :=
  match names with
  | none | some [] => none
  | some names => some (names.map Security.upperName)

/-- The rules for the built-in checks. -/
def Plan.checkRules (p : Plan) : Rules :=
  ⟨selection? (Security.enabledRules p.enabledRules p.securityOnly),
    p.disabledRules.map Security.upperName⟩

/-- The rules for the external scanner, which is about security anyway. -/
def Plan.externalRules (p : Plan) : Rules :=
  ⟨selection? p.enabledRules, p.disabledRules.map Security.upperName⟩

/-- The issue of a file that cannot be read. -/
def unreadable (t : Target) : Issue :=
  Catalogue.unreadable.issue t.shown 1 1
    s!"Unable to read file during scan: {Disk.Fault.message ⟨.denied, t.path⟩}"

/-- The issues of a file that are kept. -/
def targetIssues (p : Plan) (t : Target) : List Issue :=
  if !t.file.readable then [unreadable t]
  else
    let text := textOf t.file.bytes
    let silenced := if p.inlineIgnore then silencedLines text else []
    kept p.checkRules silenced t.shown (Checks.check (SourceFile.of t.path text))

/-- The progress of the built-in checks. -/
def steps (targets : List Target) : List Step :=
  (targets.zipIdx 1).map fun (t, n) => ⟨n, targets.length, t.shown⟩

/-! ## The external scanner -/

/-- How the path of a finding is shown: from the root of the scan if it lies below, else in full.
One with a null character cannot be followed, and is shown in full too. -/
def shownPath (disk : Disk) (root path : Path) : String :=
  if path.toString.toList.contains (Char.ofNat 0) then path.toString
  else match (disk.absolute path).relativeTo? root with
    | some relative => relative.toString
    | none => path.toString

/-- Issues by the path that they name, in the order of first appearance. -/
def byPath (issues : List Issue) : List (Path × List Issue) :=
  let paths := (issues.map fun i => Path.ofString i.filePath).eraseDups
  paths.map fun p => (p, issues.filter fun i => Path.ofString i.filePath == p)

/-- The lines that a file on the disk silences; none if it cannot be read. -/
def silencedAt (disk : Disk) (path : Path) : List (Nat × List String) :=
  match disk.textBytes path with
  | .ok bytes => silencedLines (textOf bytes)
  | .error _ => []

/-- The findings of the external scanner that are kept, by the paths under which they are shown. -/
def externalKept (disk : Disk) (p : Plan) (root : Path) (isFile : Bool) (issues : List Issue) :
    List (String × List Issue) :=
  (byPath issues).map fun (path, issues) =>
    let shown := if isFile then path.name else shownPath disk root path
    let silenced := if p.inlineIgnore then silencedAt disk path else []
    (shown, kept p.externalRules silenced shown issues)

/-- Whether a comment is looked for in a file whose path has a null character. -/
def hasNullPath (p : Plan) (issues : List Issue) : Bool :=
  p.inlineIgnore && issues.any fun i => i.filePath.toList.contains (Char.ofNat 0)

/-- The number of files that count as scanned when the external scanner has run. -/
def filesWithExternal (p : Plan) (root : Path) (isFile : Bool) (targets : Nat)
    (found : List (String × List Issue)) : Nat :=
  let named := ((found.filter fun f => !f.2.isEmpty).map (·.1)).eraseDups.length
  let count := max targets named
  if isFile && !p.choice.skips root then max count 1 else count

/-! ## The scan -/

/-- What a scan leaves: the files that were done, the calls of the external scanner, and the result
or why there is none. -/
structure Outcome where
  steps : List Step := []
  calls : List External.Call := []
  result : Except Fault ScanResult

/-- **A scan** whose checks have all the room that they need. -/
def run (disk : Disk) (machine : External.Machine) (p : Plan) (coverage : Option Coverage) :
    Outcome :=
  let root := disk.absolute p.root
  match disk.get? root, Engine.ofName? p.engine with
  | none, _ => { result := .error (.noRoot root) }
  | some _, none => { result := .error (.unknownEngine p.engine) }
  | some tree, some engine =>
    let found := targets p.choice root tree
    let steps := if engine.runsChecks then steps found else []
    let own := if engine.runsChecks then found.flatMap (targetIssues p) else []
    if !engine.runsExternal then
      { steps, result := .ok ⟨dedupe own, found.length, coverage⟩ }
    else
      match External.scan disk machine root p.external with
      | (calls, .error f) => { steps, calls, result := .error (.external f) }
      | (calls, .ok issues) =>
        if hasNullPath p issues then
          { steps, calls, result := .error (.external (.finding .nullInPath)) }
        else
          let isFile := !tree.isFolder
          let others := externalKept disk p root isFile issues
          let files := filesWithExternal p root isFile found.length others
          { steps, calls
            result := .ok ⟨dedupe (own ++ others.flatMap (·.2)), files, coverage⟩ }

/-! ## Scans on a bounded stack -/

/-- What overflows when a file is checked on a stack. -/
def Target.overflow? (t : Target) (stack : Stack) : Option Overflow :=
  if !t.file.readable then none
  else
    let file := SourceFile.of t.path (textOf t.file.bytes)
    (Checks.Analyser.ofSuffix file.suffix).overflow? stack file

/-- The first file that overflows the stack, by the number of files before it. -/
def firstOverflow? (stack : Stack) (targets : List Target) : Option (Nat × Overflow) :=
  targets.zipIdx.findSome? fun (t, done) => (t.overflow? stack).map fun o => (done, o)

/-- **A scan on the stack of the machine.** Folders that are too deep break the scan off before any
file is checked. So does a file that overflows the stack: the files before it are done, and nothing
comes of them. -/
def runWithin (disk : Disk) (machine : External.Machine) (p : Plan) (coverage : Option Coverage) :
    Outcome :=
  let root := disk.absolute p.root
  match disk.get? root, Engine.ofName? p.engine with
  | some tree, some engine =>
    if machine.stack.folders < p.choice.depth root tree then
      { result := .error (.overflow .walking) }
    else
      let found := targets p.choice root tree
      match if engine.runsChecks then firstOverflow? machine.stack found else none with
      | some (done, o) => { steps := (steps found).take done, result := .error (.overflow o) }
      | none => run disk machine p coverage
  | _, _ => run disk machine p coverage

end CodeAudit.Scan
