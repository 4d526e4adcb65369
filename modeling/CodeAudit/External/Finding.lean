import CodeAudit.Catalogue
import CodeAudit.Json.Basic
import CodeAudit.Path

/-!
# Findings of the external scanner

The external scanner reports its findings as JSON objects. A finding needs the name of its rule and
a path; everything else has a substitute.
-/

namespace CodeAudit.External

/-- The text of a value: a string without the blanks around it, if something is left. -/
def text? : Json → Option String
  | .str s =>
    let trimmed := String.ofList (Text.trim s.toList)
    if trimmed = "" then none else some trimmed
  | _ => none

/-- The text of a member. -/
def memberText? (j : Json) (name : String) : Option String := (j.get? name).bind text?

/-- A member that is an object; anything else counts as an empty one. -/
def objectMember (j : Json) (name : String) : Json :=
  match j.get? name with
  | some (.obj members) => .obj members
  | _ => .obj []

/-- A coordinate; a double loses its fraction, and what is no number gives way to a default. -/
def coord (default : Int) : Json → Except Number.WholeFault Coord
  | .int n => .ok (.number n)
  | .bool b => .ok (.flag b)
  | .float x => do return .number (← Number.wholePart x)
  | _ => .ok (.number default)

/-- The severity that a name of the external scanner stands for. -/
def severity (name : Option String) : Severity :=
  let name := String.ofList (Text.upper (Text.trim (name.getD "").toList))
  if ["INFO", "INVENTORY", "LOW"].contains name then .low
  else if ["ERROR", "HIGH"].contains name then .high
  else if name = "CRITICAL" then .critical
  else .medium

/-- Why a finding cannot be used. -/
inductive FindingFault where
  /-- The path has a null character. -/
  | nullInPath
  | coordinate (f : Number.WholeFault)
  deriving Repr, DecidableEq

/-- The text of a fault. -/
def FindingFault.message : FindingFault → String
  | nullInPath => "embedded null byte"
  | coordinate f => f.message

/-- The path of a finding: a relative one is resolved in the folder of the scan. -/
def findingPath (folder : Path) (text : String) : Except FindingFault Path :=
  let p := Path.ofString text
  if p.isAbsolute then .ok p
  else if text.toList.contains (Char.ofNat 0) then .error .nullInPath
  else .ok (Path.resolve folder p)

/-- The issue of a finding; none if it has no rule or no path. -/
def issueOf (folder : Path) (finding : Json) : Except FindingFault (Option Issue) :=
  match memberText? finding "check_id", memberText? finding "path" with
  | some rule, some path => do
    let path ← findingPath folder path
    let extra := objectMember finding "extra"
    let metadata := objectMember extra "metadata"
    let start := objectMember finding "start"
    let line ← (coord 1 ((start.get? "line").getD .null)).mapError .coordinate
    let column ← (coord 1 ((start.get? "col").getD .null)).mapError .coordinate
    return some {
      ruleId := String.ofList Security.externalMark ++ rule
      title := ((memberText? metadata "short_description").or
        (memberText? metadata "shortDescription")).getD rule
      severity := severity ((memberText? extra "severity").or (memberText? metadata "severity"))
      message := (memberText? extra "message").getD rule
      filePath := path.toString
      line, column }
  | _, _ => .ok none

/-- The issues of findings, in their order. What is not an object is passed over. -/
def issuesOf (folder : Path) : List Json → Except FindingFault (List Issue)
  | [] => .ok []
  | .obj members :: rest => do
    let first ← issueOf folder (.obj members)
    return first.toList ++ (← issuesOf folder rest)
  | _ :: rest => issuesOf folder rest

end CodeAudit.External
