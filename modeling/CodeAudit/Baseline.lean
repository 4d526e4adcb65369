import CodeAudit.Disk.Basic
import CodeAudit.Issue
import CodeAudit.Machine

/-!
# Baselines

An earlier report tells which issues are known. What it says of an issue that is not well formed is
passed over.
-/

namespace CodeAudit.Baseline

/-- Why a report cannot serve as a baseline. -/
inductive Fault where
  | disk (f : Disk.Fault)
  | encoding (m : Text.Utf8.Malformed)
  | json (e : Json.ReadError) (text : List Char)
  /-- The report is too deep for the stack. -/
  | tooDeep (complaint : String)
  | notObject
  | noIssues

/-- The text of a fault. -/
def Fault.message : Fault → String
  | disk f => f.message
  | encoding m => m.message
  | json e text => e.message text
  | tooDeep complaint => complaint
  | notObject => "Baseline report must be a JSON object."
  | noIssues => "Baseline report must contain an 'issues' array."

/-- A coordinate of a known issue. -/
def coord? : Json → Option Coord
  | .int n => some (.number n)
  | .bool b => some (.flag b)
  | _ => none

/-- The fingerprint of an issue in a report. -/
def fingerprint? (j : Json) : Option Fingerprint := do
  let ruleId ← (← j.get? "rule_id").str?
  let filePath ← (← j.get? "file_path").str?
  let message ← (← j.get? "message").str?
  let line ← coord? (← j.get? "line")
  let column ← coord? (← j.get? "column")
  return ⟨filePath, ruleId, line, column, message⟩

/-- Whether one of some fingerprints is of the same issue. -/
def knows (known : List Fingerprint) (f : Fingerprint) : Bool := known.any (·.same f)

/-- Keeps of fingerprints of the same issue the first. -/
def distinct (fingerprints : List Fingerprint) : List Fingerprint :=
  fingerprints.foldl (fun known f => if knows known f then known else known ++ [f]) []

/-- The fingerprints of the issues in a report. -/
def fingerprints (report : Json) : Except Fault (List Fingerprint) :=
  match report with
  | .obj members =>
    match Json.member? members "issues" with
    | some (.arr items) => .ok (distinct (items.filterMap fingerprint?))
    | _ => .error .noIssues
  | _ => .error .notObject

/-- The fingerprints of the issues in the text of a report. -/
def readText (stack : Stack) (text : List Char) : Except Fault (List Fingerprint) :=
  match stack.json? text, Json.read text with
  | some complaint, _ => .error (.tooDeep complaint)
  | none, .error e => .error (.json e text)
  | none, .ok report => fingerprints report

/-- **The fingerprints of the issues in a report file.** -/
def read (stack : Stack) (bytes : List UInt8) : Except Fault (List Fingerprint) :=
  match Text.Utf8.decode bytes with
  | .error m => .error (.encoding m)
  | .ok text => readText stack (Text.unifyNewlines text)

/-- The fingerprints of the issues in a report on the disk. -/
def load (stack : Stack) (disk : Disk) (path : Path) : Except Fault (List Fingerprint) :=
  match disk.textBytes path with
  | .error f => .error (.disk f)
  | .ok bytes => read stack bytes

/-- **The result without the known issues**, and the number of those. -/
def newIssues (result : ScanResult) (known : List Fingerprint) : ScanResult × Nat :=
  let new := result.issues.filter fun i => !knows known i.fingerprint
  ({ result with issues := new }, result.issues.length - new.length)

end CodeAudit.Baseline
