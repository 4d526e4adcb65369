import CodeAudit.Checks.AnySource
import CodeAudit.Checks.Braces

/-!
# Checks of Kotlin source
-/

namespace CodeAudit.Checks

open Pattern

/-- A call that runs a command through the runtime. -/
def runtimeExec : Pattern :=
  wordEdge ++ text "Runtime" ++ blanks ++ char '.' ++ blanks ++ text "getRuntime" ++ blanks ++
    char '(' ++ blanks ++ char ')' ++ blanks ++ char '.' ++ blanks ++ text "exec" ++ blanks ++
    char '('

namespace Kotlin

/-- A package clause. -/
def packageClause : Pattern :=
  textStart ++ blanks ++ text "package" ++ blanks1 ++
    capture 1 (one (fun c => c.isAlpha || c == '_') ++
      star (one fun c => Text.isWord c || c == '.')) ++
    blanks ++ textEnd

/-- Words that may stand before the keyword of a type declaration. -/
def modifiers : List String :=
  ["public", "private", "internal", "protected", "abstract", "open", "sealed", "data", "enum",
   "annotation", "value", "inline", "companion"]

/-- A type declaration; its name is kept under 1. -/
def typeHead : Pattern :=
  textStart ++ star (oneOf modifiers <|> blank) ++
    (oneOf ["class", "interface", "object"] <|> (text "enum" ++ blanks1 ++ text "class")) ++
    blanks1 ++ capture 1 identifier ++ wordEdge

/-- A function declaration: its name is kept under 1, its parameters under 2. -/
def functionHead : Pattern :=
  textStart ++ blanks ++ maybe (text "suspend" ++ blanks1) ++ text "fun" ++ blanks1 ++
    capture 1 identifier ++ blanks ++ char '(' ++ capture 2 (star (noneOf ")")) ++ char ')'

/-- Functions with bad names or too many parameters. -/
def functionIssues (f : SourceFile) : List Issue :=
  f.numbered.flatMap fun (line, n) =>
    match functionHead.search line with
    | none => []
    | some m =>
      (if isLowerCamelCase (m.group 1) then [] else
        [Catalogue.kotlinFunctionName.issue f.path n (m.column 1)
          "Function names should be lowerCamelCase."]) ++
      tooManyParameters Catalogue.kotlinManyParams f.path n (m.column 1)
        (commaParts (m.group 2)).length

/-- A call that starts a process. -/
def processBuilder : Pattern := wordEdge ++ text "ProcessBuilder" ++ blanks ++ char '('

/-- **All issues of a Kotlin file.** -/
def check (f : SourceFile) : List Issue :=
  AnySource.check f ++
  badNames Catalogue.kotlinPackageName packageClause 1 packageName.matchesAll
    "Use lower-case dot-separated package names (for example: com.company.feature)." f ++
  badNames Catalogue.kotlinTypeName typeHead 1 isUpperCamelCase
    "Class/interface/object names should be UpperCamelCase." f ++
  functionIssues f ++
  longFunctions Catalogue.kotlinLongFunction functionHead.search f ++
  deepBlocks Catalogue.kotlinNesting f ++
  codeLines f Catalogue.kotlinCommand
    "Review OS command execution usage for command injection risks."
    fun code => runtimeExec.occurs code || processBuilder.occurs code

end Kotlin

end CodeAudit.Checks
