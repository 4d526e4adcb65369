import CodeAudit.Checks.Container
import CodeAudit.Checks.Repetition

/-!
# Checks of any source

The checks that apply to every text file, whatever its language.
-/

namespace CodeAudit.Checks.AnySource

open Pattern

/-- Lines left by an unresolved merge. -/
def mergeMarkers (f : SourceFile) : List Issue :=
  f.numbered.filterMap fun (line, n) =>
    if ["<<<<<<< ", "======= ", ">>>>>>> "].any (startsWith line ·) then
      some (Catalogue.mergeMarker.issue f.path n 1
        "Unresolved git merge marker found in source file.")
    else none

/-! ## Dynamic evaluation -/

/-- Endings of files in languages with dynamic evaluation. -/
def evalSuffixes : List String :=
  [".js", ".jsx", ".ts", ".tsx", ".py", ".java", ".kt", ".go", ".php", ".rb", ".sh", ".bash",
   ".zsh", ".ps1"]

/-- A call of an evaluation function. -/
def evalCall : Pattern :=
  wordEdge ++ oneOfAnyCase ["eval", "Function"] ++ blanks ++ char '('

/-- Whether a line of code evaluates text. -/
def evaluates (suffix line : List Char) : Bool :=
  let code := Text.trim (withoutComment suffix line)
  !code.isEmpty && !startsWith code "/*" && !startsWith code "*" && evalCall.occurs code

/-- Lines that evaluate text. -/
def dynamicEvals (f : SourceFile) : List Issue :=
  if !evalSuffixes.contains (String.ofList f.suffix) then []
  else f.numbered.filterMap fun (line, n) =>
    if evaluates f.suffix line then
      some (Catalogue.dynamicEval.issue f.path n 1
        "Avoid dynamic evaluation patterns like eval()/Function().")
    else none

/-! ## Keys and addresses -/

/-- The first line of a private key. -/
def keyHeader : Pattern :=
  text "-----BEGIN " ++ star (one fun c => c.isUpper || c.isDigit || c == ' ') ++
    text "PRIVATE KEY-----"

/-- Lines that start a private key. -/
def privateKeys (f : SourceFile) : List Issue :=
  f.numbered.filterMap fun (line, n) =>
    if keyHeader.occurs line then
      some (Catalogue.privateKey.issue f.path n 1
        "Private key block marker detected. Remove secrets from source control.")
    else none

/-- An address without transport security; its host is kept under 1. -/
def plainAddress : Pattern :=
  wordEdge ++ textAnyCase "http://" ++
    capture 1 (plus (one fun c => isLetterAnyCase c || c.isDigit || c == '.' || c == '-')) ++
    maybe (char ':' ++ plus digit) ++
    maybe (anyOf "/?#" ++ star (one fun c =>
      !(Text.isBlank c || c.toNat == 0x27 || c == '"' || c == '<' || c == '>')))

/-- Hosts that an address may reach without transport security. -/
def localHosts : List String := ["localhost", "127.0.0.1", "0.0.0.0"]

/-- Addresses of other hosts without transport security. -/
def plainAddresses (f : SourceFile) : List Issue :=
  f.numbered.flatMap fun (line, n) =>
    (plainAddress.findAll line).filterMap fun m =>
      if localHosts.contains (String.ofList (Text.lower (m.group 1))) then none
      else some (Catalogue.insecureUrl.issue f.path n (m.start + 1 : Nat)
        "Use HTTPS for external endpoints to avoid cleartext transport risks.")

/-! ## Layout -/

/-- The greatest length of a line. -/
def maxLineLength : Nat := 140

/-- The greatest number of lines in a file. -/
def maxLines : Nat := 800

/-- Lines that are too long. -/
def longLines (f : SourceFile) : List Issue :=
  f.numbered.filterMap fun (line, n) =>
    if line.length ≤ maxLineLength then none
    else some (Catalogue.longLine.issue f.path n (maxLineLength + 1 : Nat)
      s!"Line length exceeds {maxLineLength} characters; wrap for readability.")

/-- Lines that end with spaces or tabs. -/
def trailingBlanks (f : SourceFile) : List Issue :=
  f.numbered.filterMap fun (line, n) =>
    let kept := Text.dropEndWhile (fun c => c == ' ' || c == '\t') line
    if kept.length = line.length then none
    else some (Catalogue.trailingBlanks.issue f.path n (kept.length + 1 : Nat)
      "Trailing whitespace reduces readability and creates noisy diffs.")

/-- A file with too many lines. -/
def largeFile (f : SourceFile) : List Issue :=
  let count := f.lines.length
  if count ≤ maxLines then []
  else [Catalogue.largeFile.issue f.path 1 1
    s!"File has {count} lines; consider splitting responsibilities into smaller units."]

/-- **All issues that any text file can have.** -/
def check (f : SourceFile) : List Issue :=
  workItems f ++ secrets ":=" f ++ mergeMarkers f ++ dynamicEvals f ++ privateKeys f ++
    plainAddresses f ++ Container.recipeIssues f ++ Container.manifestIssues f ++ longLines f ++
    trailingBlanks f ++ largeFile f ++ Repetition.issues f

end CodeAudit.Checks.AnySource
