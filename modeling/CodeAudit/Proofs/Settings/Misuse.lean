import CodeAudit.Program
import CodeAudit.Proofs.Disk.Writing

/-!
# Settings that cannot be used

Which configuration files make the settings fail otherwise than with a report (`Unsound`), and when
the command line cannot be merged with them, the checks of the gate cannot be made, or no plan can
be drawn up. All of it is said of the values as they stand in the file.
-/

namespace CodeAudit

/-! ## Failing computations -/

/-- A computation that gives a value. -/
def Gives {ε α : Type} (x : Except ε α) : Prop := ∃ a, x = .ok a

section Failing

variable {ε ε' α β : Type} {bad : ε → Prop} {x : Except ε α} {f : α → Except ε β}

end Failing

/-! ## Kinds of values -/

namespace Toml.Value

/-- Whether a value is a text. -/
def isText : Value → Bool
  | str _ => true
  | _ => false

/-- Whether a value is a table. -/
def isTable : Value → Bool
  | table _ => true
  | _ => false

/-- Whether a value has parts: an array or a table. -/
def hasParts : Value → Bool
  | array _ | table _ => true
  | _ => false

/-- Whether a value has members: parts, or the characters of a text. -/
def hasMembers (v : Value) : Bool := v.hasParts || v.isText

/-- Whether a value is a number or a truth value. -/
def isNumber (v : Value) : Bool := v.quantity?.isSome

/-- **A value that is no size at all**: neither a number nor a text, or an infinite number. -/
inductive NoSize : Value → Prop
  | kind {v : Value} (hnumber : v.isNumber = false) (htext : v.isText = false) : NoSize v
  | infinite {x : Float} (h : Number.wholePart x = .error .infinite) : NoSize (float x)

end Toml.Value

open Toml (Value Entries Misuse)
open Program (isReportedMisuse)

section Values

variable {v : Value}

end Values

namespace Settings

/-! ## The configuration file -/

variable {file entries : Entries} {name : String}

/-- Entries that give a name a value of some kind. -/
def Sets (entries : Entries) (name : String) (kind : Value → Prop) : Prop :=
  ∃ v, Toml.valueOf? entries name = some v ∧ kind v

/-- A name whose value is no table. -/
def NoTable (entries : Entries) (name : String) : Prop :=
  Sets entries name fun v => v.isTable = false

/-- A name whose value has no members. -/
def NoList (entries : Entries) (name : String) : Prop :=
  Sets entries name fun v => v.hasMembers = false

section Reading

variable {α : Type} {default : α} {f : Value → Except Misuse α} {kind : Value → Prop}

end Reading

section Lists

variable {default : List Value}

end Lists

/-- **Settings of a scan that fail without a report**: what chooses files is no list, the size of
files is none, or what chooses rules is no list. A fault that is reported hides those behind it: a
wrong size of files, and what cannot be made into a text. -/
def UnsoundScan (entries : Entries) : Prop :=
  (∃ name ∈ ["exclude", "include_extensions", "include_filenames"], NoList entries name) ∨
  Sets entries "max_file_size_kb" Value.NoSize ∨
  Gives (wholeOr entries "max_file_size_kb" ({} : ScanSettings).maxFileSizeKb) ∧
    (NoList entries "enabled_rules" ∨ Gives (texts? entries "enabled_rules") ∧
      (NoList entries "disabled_rules" ∨ Gives (texts? entries "disabled_rules") ∧
        Gives (textOr entries "engine" ({} : ScanSettings).engine) ∧
        Gives (textOr entries "semgrep_binary" ({} : ScanSettings).externalScanner) ∧
        NoList entries "semgrep_configs"))

/-- **A configuration file that makes the settings fail without a report**: the settings of the scan
are no table or unsound, or, where they can be read, those of the gate or of the report are no
table. -/
def Unsound (file : Entries) : Prop :=
  NoTable file "scan" ∨ ∃ entries, group file "scan" = .ok entries ∧
    (UnsoundScan entries ∨ Gives (scanOf entries) ∧
      ∃ name ∈ ["quality_gate", "report"], NoTable file name)

/-- A list to which something is added although it holds a value with parts. -/
def BadlyExtended (own : List Value) (given : List String) : Prop :=
  given ≠ [] ∧ ∃ v ∈ own, v.hasParts = true

/-- **Settings that cannot be merged with a command line.** -/
def Unmergeable (s : ScanSettings) (o : CommandLine.ScanOptions) : Prop :=
  BadlyExtended s.exclude o.exclude ∨ BadlyExtended s.includeExtensions o.includeExt ∨
    BadlyExtended s.includeFilenames o.includeFile

/-- **Settings of a gate that cannot be checked**: a severity with parts, or a limit that is no
number. -/
def UnsoundGate (gate : GateSettings) : Prop :=
  (∃ v, gate.failOn = some v ∧ v.hasParts = true) ∨
  (∃ limit ∈ countLimits gate, ∃ v, limit.2 = some v ∧ v.isNumber = false) ∨
  ∃ v, gate.minCoverage = some v ∧ v.isNumber = false

/-- **Settings that no plan can be made of**: an ending that is no text, or a name with parts. -/
def Unplannable (s : ScanSettings) : Prop :=
  (∃ v ∈ s.includeExtensions, v.isText = false) ∨ ∃ v ∈ s.includeFilenames, v.hasParts = true

end Settings

end CodeAudit
