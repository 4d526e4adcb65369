import CodeAudit.Checks.AnySource
import CodeAudit.Checks.Braces

/-!
# Checks of Go source
-/

namespace CodeAudit.Checks.Go

open Pattern

/-- A package clause. -/
def packageClause : Pattern :=
  textStart ++ blanks ++ text "package" ++ blanks1 ++ capture 1 identifier ++ blanks ++ textEnd

/-- A function or method declaration: its name is kept under 1, its parameters under 2. -/
def functionHead : Pattern :=
  textStart ++ blanks ++ text "func" ++ blanks1 ++
    maybe (char '(' ++ plus (noneOf ")") ++ char ')' ++ blanks) ++
    capture 1 identifier ++ blanks ++ char '(' ++ capture 2 (star (noneOf ")")) ++ char ')'

/-- A package name. -/
def plainName : Pattern := one Char.isLower ++ star (one fun c => c.isLower || c.isDigit)

/-- Functions with underscores in their names or too many parameters. -/
def functionIssues (f : SourceFile) : List Issue :=
  f.numbered.flatMap fun (line, n) =>
    match functionHead.search line with
    | none => []
    | some m =>
      (if (m.group 1).contains '_' then
        [Catalogue.goFunctionName.issue f.path n (m.column 1)
          "Function names should use CamelCase without underscores."] else []) ++
      tooManyParameters Catalogue.goManyParams f.path n (m.column 1)
        (commaParts (m.group 2)).length

/-! ## Imports -/

/-- An import of one package, kept under 1. -/
def singleImport : Pattern :=
  textStart ++ blanks ++ text "import" ++ blanks1 ++ char '"' ++
    capture 1 (plus (noneOf "\"")) ++ char '"' ++ blanks ++ textEnd

/-- The line that opens a block of imports. -/
def importBlock : Pattern :=
  textStart ++ blanks ++ text "import" ++ blanks ++ char '(' ++ blanks ++ textEnd

/-- A package in a block of imports, kept under 1. -/
def blockImport : Pattern :=
  textStart ++ blanks ++ char '"' ++ capture 1 (plus (noneOf "\"")) ++ char '"' ++ blanks ++
    textEnd

/-- The imports of lines, with whether they stand in a block. -/
def importsFrom (inBlock : Bool) : List (List Char) → List (List Char)
  | [] => []
  | line :: rest =>
    if importBlock.occurs line then importsFrom true rest
    else if inBlock then
      if Text.trim line = [')'] then importsFrom false rest
      else match blockImport.search line with
        | some m => m.group 1 :: importsFrom true rest
        | none => importsFrom true rest
    else match singleImport.search line with
      | some m => m.group 1 :: importsFrom false rest
      | none => importsFrom false rest

/-- The packages that lines import, each once. -/
def imports (lines : List (List Char)) : List (List Char) := (importsFrom false lines).eraseDups

/-- The greatest number of imports. -/
def maxImports : Nat := 25

/-- A file with too many imports. -/
def importIssues (f : SourceFile) : List Issue :=
  let count := (imports f.lines).length
  if count ≤ maxImports then []
  else [Catalogue.goFanOut.issue f.path 1 1
    s!"File imports {count} dependencies; consider reducing coupling."]

/-! ## Risky calls -/

/-- A setting that turns off the verification of certificates. -/
def skipsVerification : Pattern :=
  wordEdge ++ text "InsecureSkipVerify" ++ blanks ++ char ':' ++ blanks ++ text "true" ++ wordEdge

/-- A command that is run through a shell. -/
def shellCommand : Pattern :=
  wordEdge ++ text "exec" ++ blanks ++ char '.' ++ blanks ++ text "Command" ++ blanks ++
    char '(' ++ blanks ++ text "\"sh\"" ++ blanks ++ char ',' ++ blanks ++ text "\"-c\""

/-- **All issues of a Go file.** -/
def check (f : SourceFile) : List Issue :=
  AnySource.check f ++
  badNames Catalogue.goPackageName packageClause 1 plainName.matchesAll
    "Go package names should be short lowercase identifiers." f ++
  functionIssues f ++
  longFunctions Catalogue.goLongFunction functionHead.search f ++
  deepBlocks Catalogue.goNesting f ++
  importIssues f ++
  codeLines f Catalogue.goTls "Avoid InsecureSkipVerify=true in production TLS settings."
    skipsVerification.occurs ++
  codeLines f Catalogue.goShell
    "Review exec.Command(\"sh\", \"-c\", ...) usage for command injection risks."
    shellCommand.occurs

end CodeAudit.Checks.Go
