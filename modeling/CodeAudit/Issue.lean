import CodeAudit.Number.Quantity

/-!
# Issues and results

What a scan reports: a rule that was broken, and where. Issues that come from outside may carry
severities and coordinates of their own, which are kept as they are.
-/

namespace CodeAudit

/-- How grave an issue is. Reports from elsewhere may use other names. -/
inductive Severity where
  | low
  | medium
  | high
  | critical
  | other (name : String)
  deriving Repr, DecidableEq

/-- The name of a severity. -/
def Severity.name : Severity → String
  | low => "low"
  | medium => "medium"
  | high => "high"
  | critical => "critical"
  | other name => name

/-- The severity with a name. -/
def Severity.ofName (name : String) : Severity :=
  if name = "low" then low
  else if name = "medium" then medium
  else if name = "high" then high
  else if name = "critical" then critical
  else other name

/-- A severity keeps its name. -/
@[simp] theorem Severity.name_ofName (name : String) : (ofName name).name = name := by
  unfold ofName
  split
  · simp [Severity.name, *]
  split
  · simp [Severity.name, *]
  split
  · simp [Severity.name, *]
  split <;> simp [Severity.name, *]

/-- A line or column. A report from elsewhere may give a truth value in its place, which counts as
one or zero. -/
inductive Coord where
  | number (n : Int)
  | flag (b : Bool)
  deriving Repr, DecidableEq

/-- The number that a coordinate counts as. -/
def Coord.value : Coord → Int
  | number n => n
  | flag b => if b then 1 else 0

/-- How a coordinate is written in a line of text. -/
def Coord.text : Coord → String
  | number n => toString n
  | flag b => if b then "True" else "False"

instance : Coe Nat Coord := ⟨fun n => .number n⟩

instance : OfNat Coord n := ⟨.number n⟩

/-- An issue. -/
structure Issue where
  ruleId : String
  title : String
  severity : Severity
  message : String
  filePath : String
  line : Coord
  column : Coord
  deriving Repr, DecidableEq

/-- What tells issues apart: the place, the rule and the message. -/
structure Fingerprint where
  filePath : String
  ruleId : String
  line : Coord
  column : Coord
  message : String
  deriving Repr, DecidableEq

/-- Whether two fingerprints are of the same issue; coordinates count by value. -/
def Fingerprint.same (a b : Fingerprint) : Bool :=
  a.filePath == b.filePath && a.ruleId == b.ruleId && a.line.value == b.line.value &&
    a.column.value == b.column.value && a.message == b.message

/-- The fingerprint of an issue. -/
def Issue.fingerprint (i : Issue) : Fingerprint :=
  ⟨i.filePath, i.ruleId, i.line, i.column, i.message⟩

/-- A rule: its identity, and how its issues are titled and graded. -/
structure RuleInfo where
  id : String
  title : String
  severity : Severity
  deriving Repr, DecidableEq

/-- An issue of a rule. -/
def RuleInfo.issue (r : RuleInfo) (filePath : String) (line column : Coord) (message : String) :
    Issue :=
  ⟨r.id, r.title, r.severity, message, filePath, line, column⟩

/-! ## Results of a scan -/

/-- How much of the code the tests reach. -/
structure Coverage where
  /-- The share of lines that are covered. -/
  lineRate : Number.Quantity
  linesCovered : Option Int := none
  linesValid : Option Int := none
  deriving Repr

/-- The covered lines in percent. -/
def Coverage.percent (c : Coverage) : Float := c.lineRate.toFloat * 100.0

/-- What a scan finds. -/
structure ScanResult where
  issues : List Issue
  filesScanned : Int
  coverage : Option Coverage := none
  deriving Repr

/-- The number of issues with a severity. -/
def countSeverity (s : Severity) (issues : List Issue) : Nat :=
  issues.countP (·.severity == s)

/-- The files that issues name, each once, in the order of first appearance. -/
def filesOf (issues : List Issue) : List String := (issues.map (·.filePath)).eraseDups

end CodeAudit
