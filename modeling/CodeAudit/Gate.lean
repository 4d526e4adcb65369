import CodeAudit.Issue
import CodeAudit.Text.Quoted

/-!
# The quality gate

A result passes the gate if it stays within every limit that is set. Each limit that it breaks is a
reason to fail, in a fixed order.
-/

namespace CodeAudit

open Number

/-- Limits on a result; a limit that is not set allows everything. -/
structure Limits where
  /-- The severity from which on issues are not allowed. -/
  failOn : Option Severity := none
  maxIssues : Option Quantity := none
  maxFilesWithIssues : Option Quantity := none
  maxLow : Option Quantity := none
  maxMedium : Option Quantity := none
  maxHigh : Option Quantity := none
  maxCritical : Option Quantity := none
  /-- The least coverage, in percent. -/
  minCoverage : Option Quantity := none
  deriving Repr

/-- The rank of a severity; other names have none. -/
def Severity.rank? : Severity → Option Nat
  | low => some 1
  | medium => some 2
  | high => some 3
  | critical => some 4
  | other _ => none

namespace Gate

/-- Why a result cannot be judged. -/
inductive Fault where
  /-- A severity without rank is to be compared. -/
  | unranked (name : String)
  /-- A limit that is exceeded has too many digits to be written. -/
  | unwritable
  /-- A share is beyond the range of doubles. -/
  | tooLarge
  deriving Repr, DecidableEq

/-- The text of a fault. -/
def Fault.message : Fault → String
  | unranked name => Text.quotedString name
  | unwritable => Number.unwritableMessage
  | tooLarge => "int too large to convert to float"

/-- The rank of a severity, or the fault that it has none. -/
def rank (s : Severity) : Except Fault Nat :=
  match s.rank? with
  | some n => .ok n
  | none => .error (.unranked s.name)

/-- Whether an issue reaches a rank. Issues are looked at in order up to the first that does. -/
def reaches (threshold : Nat) : List Issue → Except Fault Bool
  | [] => .ok false
  | i :: rest => do
    if threshold ≤ (← rank i.severity) then return true else reaches threshold rest

/-- Whether a count exceeds a limit. -/
def exceeds (count : Nat) (limit : Quantity) : Bool := limit.isLess (.whole count)

/-- The reason that a severity is reached. -/
def severityReasons (limits : Limits) (issues : List Issue) : Except Fault (List String) :=
  match limits.failOn with
  | none => .ok []
  | some s => do
    if ← reaches (← rank s) issues then return [s!"Detected issue severity >= '{s.name}'"]
    else return []

/-- A count with the limit that it has to stay within, and how both are called. -/
structure Bound where
  limit : Option Quantity
  count : Nat
  what : String
  name : String

/-- The counts of a result with their limits. -/
def bounds (limits : Limits) (issues : List Issue) : List Bound :=
  [⟨limits.maxIssues, issues.length, "Issue count", "max_issues"⟩,
   ⟨limits.maxFilesWithIssues, (filesOf issues).length, "Files with issues",
    "max_files_with_issues"⟩,
   ⟨limits.maxLow, countSeverity .low issues, "low issue count", "max_low"⟩,
   ⟨limits.maxMedium, countSeverity .medium issues, "medium issue count", "max_medium"⟩,
   ⟨limits.maxHigh, countSeverity .high issues, "high issue count", "max_high"⟩,
   ⟨limits.maxCritical, countSeverity .critical issues, "critical issue count", "max_critical"⟩]

/-- The reason that a count exceeds its limit. -/
def countReasons (b : Bound) : Except Fault (List String) :=
  match b.limit with
  | none => .ok []
  | some limit =>
    if !exceeds b.count limit then .ok []
    else if limit.isWritable then .ok [s!"{b.what} {b.count} exceeds {b.name}={limit.text}"]
    else .error .unwritable

/-- A share as a double, or the fault that it is none. -/
def share (q : Quantity) : Except Fault Float :=
  match q.toFloat? with
  | some x => .ok x
  | none => .error .tooLarge

/-- The reason that the coverage is too low. -/
def coverageReasons (least : Option Quantity) (coverage : Option Coverage) :
    Except Fault (List String) :=
  match least, coverage with
  | none, _ => .ok []
  | some _, none => .ok ["Coverage gate set but no coverage data was provided."]
  | some least, some c => do
    let percent := (← share c.lineRate) * 100.0
    if (Quantity.real percent).isLess least then
      return [s!"Coverage {fixed 2 percent}% is below min_coverage={fixed 2 (← share least)}%"]
    else return []

/-- **The reasons for which a result fails the gate.** It passes if there are none. -/
def reasons (limits : Limits) (result : ScanResult) : Except Fault (List String) := do
  let severities ← severityReasons limits result.issues
  let counts ← (bounds limits result.issues).mapM countReasons
  let coverage ← coverageReasons limits.minCoverage result.coverage
  return severities ++ counts.flatten ++ coverage

end Gate

end CodeAudit
