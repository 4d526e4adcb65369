import CodeAudit.Disk.Basic
import CodeAudit.Issue
import CodeAudit.Xml.Document

/-!
# Coverage files

The coverage of a project is read from the root element of an XML file: the share of covered lines,
or the numbers of covered and of all lines, from which the share follows.
-/

namespace CodeAudit.CoverageFile

/-- Why a coverage file cannot be used. -/
inductive Fault where
  | missing (path : Path)
  | disk (f : Disk.Fault)
  | document (e : Xml.DocumentError)
  | badShare (text : List Char)
  | badCount (text : List Char) (f : Number.IntFault)
  /-- Neither the share nor both numbers are given. -/
  | noShare
  /-- The share is too large for a double. -/
  | tooLarge

/-- The text of a fault. -/
def Fault.message : Fault → String
  | missing path => s!"Coverage XML not found: {path}"
  | disk f => f.message
  | document e => e.message
  | badShare text => "could not convert string to float: " ++ String.ofList (Text.quoted text)
  | badCount text f => f.message (String.ofList (Text.quoted text))
  | noShare => "Coverage XML missing line-rate and lines-covered/lines-valid attributes."
  | tooLarge => "integer division result too large for a float"

/-- Reads a share. -/
def readShare (text : List Char) : Except Fault Float :=
  match Number.readFloat? text with
  | some x => .ok x
  | none => .error (.badShare text)

/-- Reads a number of lines. -/
def readCount (text : List Char) : Except Fault Int :=
  match Number.readInt text with
  | .ok n => .ok n
  | .error f => .error (.badCount text f)

/-- The quotient of two numbers of lines. -/
def quotient (covered valid : Int) : Except Fault Float :=
  let x := Number.nearest ((covered < 0) != (valid < 0)) covered.natAbs valid.natAbs
  if x.isInf then .error .tooLarge else .ok x

/-- The value of an attribute. -/
def attribute? (attributes : List Xml.Attribute) (name : String) : Option (List Char) :=
  (attributes.find? (·.name == name.toList)).map (·.value)

/-- The share that is given, or that follows from the numbers of lines. -/
def shareOf (share : Option Float) (covered valid : Option Int) : Except Fault Float :=
  match share, covered, valid with
  | some x, _, _ => .ok x
  | none, some covered, some valid =>
    if valid = 0 then .error .noShare else quotient covered valid
  | none, _, _ => .error .noShare

/-- The coverage that attributes tell. -/
def ofAttributes (attributes : List Xml.Attribute) : Except Fault Coverage := do
  let share ← (attribute? attributes "line-rate").mapM readShare
  let covered ← (attribute? attributes "lines-covered").mapM readCount
  let valid ← (attribute? attributes "lines-valid").mapM readCount
  return ⟨.real (← shareOf share covered valid), covered, valid⟩

/-- **The coverage that a file tells.** -/
def read (bytes : List UInt8) : Except Fault Coverage :=
  match Xml.rootAttributes bytes with
  | .ok attributes => ofAttributes attributes
  | .error e => .error (.document e)

/-- The coverage that a file on the disk tells. -/
def load (disk : Disk) (path : Path) : Except Fault Coverage :=
  match disk.seek path with
  | .error f => .error (.disk f)
  | .ok false => .error (.missing path)
  | .ok true =>
    match disk.bytes path with
    | .error f => .error (.disk f)
    | .ok bytes => read bytes

end CodeAudit.CoverageFile
