import CodeAudit.Proofs.Program.Stages
import CodeAudit.Proofs.Settings.Misuse

/-!
# What breaks a stage off

A stage can fail with a report or break the run off. Here it is said of the data alone when the
latter happens to a coverage file (`CoverageFile.Breaks`), to the external scanner, when it is
started and when it answers (`External.Breaks`), and to a scan (`Scan.Breaks`).
-/

namespace CodeAudit

/-! ## Coverage files -/

namespace CoverageFile

/-- An attribute that gives a number of lines. -/
def Counts (attributes : List Xml.Attribute) (name : String) (n : Int) : Prop :=
  ∃ text, attribute? attributes name = some text ∧ Number.readInt text = .ok n

/-- **Numbers of lines whose quotient is too large**, where no share is given. -/
def TooLarge (attributes : List Xml.Attribute) : Prop :=
  attribute? attributes "line-rate" = none ∧
    ∃ covered valid : Int, Counts attributes "lines-covered" covered ∧
      Counts attributes "lines-valid" valid ∧ valid ≠ 0 ∧
      quotient covered valid = .error .tooLarge

variable {attributes : List Xml.Attribute} {name : String}

/-- **A coverage file that breaks a run off**: its encoding is not known, or the quotient of its
numbers is too large. -/
def Breaks (bytes : List UInt8) : Prop :=
  (∃ name, Xml.rootAttributes bytes = .error (.unknownEncoding name)) ∨
    ∃ attributes, Xml.rootAttributes bytes = .ok attributes ∧ TooLarge attributes

end CoverageFile

/-! ## Reports of the external scanner -/

namespace External

variable {folder : Path} {finding : Json}

/-- **A finding with an infinite coordinate**, before which there is nothing to report. -/
def Infinite (folder : Path) (finding : Json) : Prop :=
  ∃ rule path place, memberText? finding "check_id" = some rule ∧
    memberText? finding "path" = some path ∧ findingPath folder path = .ok place ∧
    (StartsAt finding "line" .infinite ∨
      (∀ fault, ¬ StartsAt finding "line" fault) ∧ StartsAt finding "col" .infinite)

/-- **Findings the first of which that cannot be read has an infinite coordinate.** What is no
object is passed over. -/
def ReachesInfinite (folder : Path) : List Json → Prop
  | [] => False
  | .obj members :: rest => Infinite folder (.obj members) ∨
      Gives (issueOf folder (.obj members)) ∧ ReachesInfinite folder rest
  | _ :: rest => ReachesInfinite folder rest

/-- **A report that breaks a scan off**: it is no object, its results cannot be gone through, or
they reach an infinite coordinate. -/
def BreaksReport (folder : Path) (report : Json) : Prop :=
  report.members? = none ∨ ∃ found, report.get? "results" = some found ∧
    (isIterable found = false ∨ ∃ items, found = .arr items ∧ ReachesInfinite folder items)

/-- **The text of an answer that breaks a scan off**: it is too deep for the reader, or that of a
report which breaks off. -/
def BreaksReply (stack : Stack) (folder : Path) (text : List Char) : Prop :=
  text ≠ [] ∧ (stack.json? text ≠ none ∨
    ∃ report, Json.read text = .ok report ∧ BreaksReport folder report)

/-- **A command with what is no text**, before which everything can be handed over. -/
def HasNonText (machine : Machine) (command : List Toml.Value) : Prop :=
  machine.takesAnything = false ∧ ∃ before v after, command = before ++ v :: after ∧
    (∀ u ∈ before, ∃ s, u = .str s ∧ Char.ofNat 0 ∉ s.toList) ∧ v.isText = false

/-- **An external scanner that breaks a scan off**: it is there, and is to be started with what is
no text, or is started and answers with what breaks off. -/
def Breaks (disk : Disk) (machine : Machine) (root : Path) (request : Request) : Prop :=
  ∃ program, External.program disk machine request.scanner = .ok program ∧
    (HasNonText machine (command program request (place disk root).2) ∨
      Starts machine (command program request (place disk root).2) ∧
        BreaksReply machine.stack (place disk root).1 (Text.trim machine.reply.output.toList))

end External

/-! ## Scans -/

namespace Scan

variable {disk : Disk} {machine : External.Machine} {p : Plan} {coverage : Option Coverage}

/-- **What the stack has no room for in a scan**: folders that lie too deep, or a file that is
checked. -/
def Overflows (disk : Disk) (machine : External.Machine) (p : Plan) (tree : FileTree)
    (engine : Engine) : Prop :=
  machine.stack.folders < p.choice.depth (disk.absolute p.root) tree ∨
    engine.runsChecks = true ∧
      ∃ t ∈ targets p.choice (disk.absolute p.root) tree, t.TooDeep machine.stack

/-- **A scan that breaks off**: the stack has no room for it, or the external scanner breaks it
off. -/
def Breaks (disk : Disk) (machine : External.Machine) (p : Plan) : Prop :=
  ∃ tree engine, disk.get? (disk.absolute p.root) = some tree ∧
    Engine.ofName? p.engine = some engine ∧
    (Overflows disk machine p tree engine ∨
      engine.runsExternal = true ∧
        External.Breaks disk machine (disk.absolute p.root) p.external)

end Scan

end CodeAudit
