import CodeAudit.Checks.Kotlin

/-!
# Checks of Java source
-/

namespace CodeAudit.Checks.Java

open Pattern

/-! ## Declarations -/

/-- A package clause; the name is kept under 1. -/
def packageClause : Pattern :=
  textStart ++ blanks ++ text "package" ++ blanks1 ++
    capture 1 (one (fun c => c.isAlpha || c == '_') ++
      star (one fun c => Text.isWord c || c == '.')) ++
    blanks ++ char ';'

/-- Words that may stand before the keyword of a type declaration. -/
def typeModifiers : List String :=
  ["public", "protected", "private", "abstract", "final", "sealed", "non-sealed", "static"]

/-- A type declaration: its keyword is kept under 1, its name under 2. -/
def typeHead : Pattern :=
  textStart ++ star (oneOf typeModifiers <|> blank) ++
    capture 1 (oneOf ["class", "interface", "enum", "record"]) ++ blanks1 ++
    capture 2 identifier ++ wordEdge

/-- Words that may stand before the type of a method. -/
def methodModifiers : List String :=
  ["public", "protected", "private", "static", "final", "abstract", "synchronized", "native",
   "strictfp"]

/-- A character of a type. -/
def typeChar : Pattern := one fun c => Text.isWord c || "<>[], ?".toList.contains c

/-- A method declaration; the name is kept under 1. -/
def methodHead : Pattern :=
  textStart ++ plus (oneOf methodModifiers <|> blank) ++ plusReluctant typeChar ++
    blanks1 ++ capture 1 identifier ++ blanks ++ char '(' ++ star (noneOf ";") ++ char ')' ++
    blanks ++ (char openBrace <|> (text "throws" ++ wordEdge))

/-- A constant; the name is kept under 1. -/
def constantHead : Pattern :=
  wordEdge ++ maybe (text "public" ++ blanks1) ++ text "static" ++ blanks1 ++ text "final" ++
    blanks1 ++ plus typeChar ++ blanks1 ++ capture 1 identifier ++ wordEdge

/-- The first text in parentheses, kept under 1. -/
def parenthesized : Pattern := char '(' ++ capture 1 (star (noneOf ")")) ++ char ')'

/-- The name of a file without its ending. -/
def stem (f : SourceFile) : List Char :=
  f.name.take (f.name.length - (Path.suffixOf f.name).length)

/-! ## Names -/

/-- Whether a line declares a class that should share its file's name. -/
def declaresMainClass (line : List Char) : Bool :=
  contains " class ".toList (' ' :: line ++ [' ']) &&
    (startsWith (Text.trimStart line) "public " || startsWith (Text.trimStart line) "class ")

/-- The first such class, if its name is not the name of the file. -/
def fileNames (f : SourceFile) : List Issue :=
  let main : Option (Found × Nat) := f.numbered.findSome? fun (line, n) =>
    (typeHead.search line).bind fun m => if declaresMainClass line then some (m, n) else none
  match main with
  | none => []
  | some (m, n) =>
    let name := m.group 2
    if name = stem f then []
    else
      let shown := String.ofList name
      [Catalogue.javaFileName.issue f.path n (m.column 2)
        s!"Top-level public class '{shown}' should be declared in '{shown}.java'."]

/-- Words that are no names of methods. -/
def controlWords : List String := ["if", "for", "while", "switch", "catch", "return"]

/-- Whether a name is fit for a method of a file; a constructor has the name of the file. -/
def acceptsMethodName (f : SourceFile) (name : List Char) : Bool :=
  controlWords.contains (String.ofList name) || name == stem f || isLowerCamelCase name

/-! ## Methods -/

/-- The number of parameters of a method. -/
def parameterCount (line : List Char) : Nat :=
  match parenthesized.search line with
  | some m => (commaParts (m.group 1)).length
  | none => 0

/-- The issues of a method declaration: too many parameters, or too many lines. -/
def methodIssues (f : SourceFile) (v : Visit Found) : List Issue :=
  let count := parameterCount v.line
  let line := v.index + 1
  let column := v.found.column 1
  (if count ≤ maxParameters then [] else
    [Catalogue.javaManyParams.issue f.path line column
      s!"Method has {count} parameters; target at most {maxParameters}."]) ++
  match v.length? with
  | some length =>
    if length ≤ maxBlockLines ∨ v.found.group 1 = stem f then []
    else [Catalogue.javaLongMethod.issue f.path line column
      s!"Method spans {length} lines; target at most {maxBlockLines}."]
  | none => []

/-- The first and last lines of the methods among lines, from an index on. -/
def methodRanges (lines : List (List Char)) (index : Nat) : List (Nat × Nat) :=
  (visits methodHead.search index lines).filterMap fun v => v.stop.map (v.index, ·)

/-! ## Classes -/

/-- A class: its name, the number of the line that declares it, and the indices of its first and
last line. -/
structure ClassRange where
  name : List Char
  line : Nat
  start : Nat
  stop : Nat
  deriving Repr, DecidableEq

/-- The name of the class that a line declares. -/
def className? (line : List Char) : Option (List Char) :=
  (typeHead.search line).bind fun m =>
    if m.group 1 = "class".toList then some (m.group 2) else none

/-- How many lines pass before the one at which no brace is open any more. -/
def linesBeforeClose (depth : Int) : List (List Char) → Nat
  | [] => 0
  | line :: rest =>
    let depth := depth + balance line
    if depth ≤ 0 then 0 else linesBeforeClose depth rest + 1

/-- How many lines pass before one with an opening brace. -/
def linesBeforeOpen : List (List Char) → Nat
  | [] => 0
  | line :: rest => if opens line then 0 else linesBeforeOpen rest + 1

/-- The classes among lines, from an index on. A class whose block never opens ends the search. -/
def classRangesFrom (index : Nat) : List (List Char) → List ClassRange
  | [] => []
  | line :: rest =>
    match className? line with
    | none => classRangesFrom (index + 1) rest
    | some name =>
      let head := linesBeforeOpen (line :: rest)
      let block := (line :: rest).drop head
      if block.isEmpty then []
      else
        let more := head + linesBeforeClose 0 block
        ⟨name, index + 1, index, index + min more rest.length⟩ ::
          classRangesFrom (index + more + 1) (rest.drop more)
termination_by lines => lines.length
decreasing_by all_goals (simp only [List.length_drop, List.length_cons]; omega)

/-- **The classes among lines**, side by side and not one in another. -/
def classRanges (lines : List (List Char)) : List ClassRange := classRangesFrom 0 lines

/-- The first and last lines of the methods of a class. -/
def ClassRange.methods (c : ClassRange) (lines : List (List Char)) : List (Nat × Nat) :=
  methodRanges ((lines.take (c.stop + 1)).drop c.start) c.start

/-- A use of a field of the object; its name is kept under 1. -/
def ownField : Pattern := wordEdge ++ text "this." ++ capture 1 identifier ++ wordEdge

/-- The fields that some lines use. -/
def fieldsOf (lines : List (List Char)) : List String :=
  distinct ((ownField.findAll (['\n'].intercalate lines)).map fun m => String.ofList (m.group 1))

/-- The cohesion of methods, given by their first and last lines. -/
def methodCohesion (lines : List (List Char)) (methods : List (Nat × Nat)) : Option Float :=
  cohesion (methods.map fun (start, stop) => fieldsOf ((lines.take (stop + 1)).drop start))

/-- The greatest number of methods of a class. -/
def maxMethods : Nat := 20

/-- The issues of a class. -/
def classIssues (f : SourceFile) (c : ClassRange) : List Issue :=
  let methods := c.methods f.lines
  let name := String.ofList c.name
  let report := fun (r : RuleInfo) (message : String) =>
    [r.issue f.path c.line 1 message]
  (if methods.length ≤ maxMethods then [] else
    report Catalogue.javaManyMethods
      s!"Class '{name}' declares {methods.length} methods; target at most {maxMethods}.") ++
  match methodCohesion f.lines methods with
  | some score =>
    if score < leastCohesion then
      report Catalogue.javaCohesion
        (s!"Class '{name}' methods share little common state "
          ++ s!"(cohesion score {Number.fixed 2 score}).")
    else []
  | none => []

/-! ## Imports -/

/-- An import; the name is kept under 1. -/
def importClause : Pattern :=
  textStart ++ blanks ++ text "import" ++ blanks1 ++
    capture 1 (plus (one fun c => c.isAlphanum || c == '_' || c == '.' || c == '*')) ++
    blanks ++ char ';'

/-- The number of different imports. -/
def importFanOut (lines : List (List Char)) : Nat :=
  (distinct (lines.filterMap fun line =>
    (importClause.matchStart line).map fun m => String.ofList (m.group 1))).length

/-- The greatest number of imports. -/
def maxImports : Nat := 30

/-- A file with too many imports. -/
def importIssues (f : SourceFile) : List Issue :=
  let fanOut := importFanOut f.lines
  if fanOut ≤ maxImports then []
  else [Catalogue.javaFanOut.issue f.path 1 1
    s!"File imports {fanOut} dependencies; consider reducing coupling."]

/-- A new process. -/
def newProcess : Pattern :=
  wordEdge ++ text "new" ++ blanks1 ++ text "ProcessBuilder" ++ blanks ++ char '('

/-- **All issues of a Java file.** -/
def check (f : SourceFile) : List Issue :=
  AnySource.check f ++
  badNames Catalogue.javaPackageName packageClause 1 packageName.matchesAll
    "Use lower-case dot-separated package names (for example: com.company.feature)." f ++
  badNames Catalogue.javaTypeName typeHead 2 isUpperCamelCase
    "Class/interface/enum/record names should be UpperCamelCase." f ++
  fileNames f ++
  badNames Catalogue.javaMethodName methodHead 1 (acceptsMethodName f)
    "Method names should be lowerCamelCase." f ++
  badNames Catalogue.javaConstantName constantHead 1 upperSnakeCase.matchesAll
    "static final constants should use UPPER_SNAKE_CASE." f ++
  (visits methodHead.search 0 f.lines).flatMap (methodIssues f) ++
  deepBlocks Catalogue.javaNesting f ++
  codeLines f Catalogue.javaCommand
    "Review OS command execution (Runtime.exec/ProcessBuilder) for injection risks."
    (fun code => runtimeExec.occurs code || newProcess.occurs code) ++
  importIssues f ++
  (classRanges f.lines).flatMap (classIssues f)

end CodeAudit.Checks.Java
