import CodeAudit.Catalogue
import CodeAudit.Path
import CodeAudit.Pattern.Basic

/-!
# Markers in lines

Checks that look for a pattern in each line of any source: work items, credentials, and the
comments that hide code from other checks.
-/

namespace CodeAudit.Checks

open Pattern

/-- `TODO` or `FIXME` as a word of its own, in either case. -/
def workItemPattern : Pattern := wordEdge ++ oneOfAnyCase ["TODO", "FIXME"] ++ wordEdge

/-- Lines with a work item marker. -/
def workItems (f : SourceFile) : List Issue :=
  f.numbered.filterMap fun (line, n) =>
    (workItemPattern.search line).map fun m =>
      Catalogue.workItem.issue f.path n (m.start + 1 : Nat)
        "Found TODO/FIXME marker. Track and resolve before release."

/-- A name for a credential. -/
def credentialName : Pattern :=
  (textAnyCase "api" ++ maybe (anyOf "_-") ++ textAnyCase "key") <|>
    oneOfAnyCase ["secret", "token", "password"]

/-- A credential that is given a quoted value of at least eight characters, by one of the given
signs. -/
def secretPattern (signs : String) : Pattern :=
  credentialName ++ blanks ++ anyOf signs ++ blanks ++ quote ++ many 8 false notQuote ++ quote

/-- Lines that give a credential a value. -/
def secrets (signs : String) (f : SourceFile) : List Issue :=
  let pattern := secretPattern signs
  f.numbered.filterMap fun (line, n) =>
    if pattern.occurs line then
      some (Catalogue.hardcodedSecret.issue f.path n 1
        "Potential credential/token assignment found in source.")
    else none

/-- The part of a line before the first occurrence of a mark. -/
def before (mark : List Char) : List Char → List Char
  | [] => []
  | c :: rest => if mark.isPrefixOf (c :: rest) then [] else c :: before mark rest

/-- Whether a text has another one in it. -/
def contains (part : List Char) : List Char → Bool
  | [] => part.isEmpty
  | c :: rest => part.isPrefixOf (c :: rest) || contains part rest

/-- Whether a text starts with another one. -/
def startsWith (text : List Char) (start : String) : Bool := start.toList.isPrefixOf text

/-! ## Comments -/

/-- Endings of files whose comments start with a hash. -/
def hashSuffixes : List String :=
  [".py", ".sh", ".bash", ".zsh", ".rb", ".yaml", ".yml", ".toml", ".ini", ".cfg"]

/-- Endings of files whose comments start with two slashes. -/
def slashSuffixes : List String :=
  [".js", ".jsx", ".ts", ".tsx", ".java", ".kt", ".go", ".c", ".cpp", ".cs", ".swift", ".scala"]

/-- The mark that starts a comment in files with an ending. -/
def commentMark? (suffix : List Char) : Option String :=
  let suffix := String.ofList suffix
  if hashSuffixes.contains suffix then some "#"
  else if slashSuffixes.contains suffix then some "//"
  else if suffix = ".sql" then some "--"
  else none

/-- A line without the blanks at its start and without its comment, for files with an ending. -/
def withoutComment (suffix line : List Char) : List Char :=
  let line := Text.trimStart line
  match commentMark? suffix with
  | some mark => before mark.toList line
  | none => line

/-- A line without a comment of two slashes. -/
def withoutSlashComment (line : List Char) : List Char :=
  if startsWith (Text.trimStart line) "//" then [] else before "//".toList line

/-- The code of a line: what is left of it without a comment of two slashes and without blanks at
the ends. -/
def codeOf (line : List Char) : List Char := Text.trim (withoutSlashComment line)

/-- Lines whose code satisfies a test, reported at their start. -/
def codeLines (f : SourceFile) (r : RuleInfo) (message : String) (test : List Char → Bool) :
    List Issue :=
  f.numbered.filterMap fun (line, n) =>
    let code := codeOf line
    if !code.isEmpty && test code then some (r.issue f.path n 1 message) else none

end CodeAudit.Checks
