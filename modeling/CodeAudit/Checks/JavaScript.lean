import CodeAudit.Checks.AnySource
import CodeAudit.Checks.Braces

/-!
# Checks of JavaScript source

Functions are declared by a `function` statement or by giving an arrow function a name. Components
are told from plain functions by their name and by tags nearby, and follow another naming rule.
Names that earlier lines bind to the command functions of `child_process` are followed through the
file.
-/

namespace CodeAudit.Checks.JavaScript

open Pattern

/-! ## Functions and components -/

/-- Parameters in parentheses, kept under 2. -/
def parameters : Pattern := char '(' ++ capture 2 (star (noneOf ")")) ++ char ')'

/-- A function statement; its name is kept under 1. -/
def functionHead : Pattern :=
  textStart ++ blanks ++ text "function" ++ blanks1 ++ capture 1 identifier ++ blanks ++ parameters

/-- A keyword that binds names. -/
def binder : Pattern := oneOf ["const", "let", "var"]

/-- An arrow function that is given a name, which is kept under 1. -/
def arrowHead : Pattern :=
  textStart ++ blanks ++ binder ++ blanks1 ++ capture 1 identifier ++ blanks ++ char '=' ++
    blanks ++ parameters ++ blanks ++ text "=>"

/-- A class of components; its name is kept under 1. -/
def componentClass : Pattern :=
  textStart ++ blanks ++ text "class" ++ blanks1 ++ capture 1 identifier ++ blanks1 ++
    text "extends" ++ blanks1 ++ maybe (text "React.") ++ text "Component" ++ wordEdge

/-- A tag. -/
def tag : Pattern := char '<' ++ letter ++ star letterOrDigit

/-- The number of lines in which tags are looked for. -/
def tagWindow : Nat := 8

/-- **Whether a function looks like a component**: it has a component's name, its line speaks of
React or JSX, or a tag follows soon. `following` starts with the function's own line. -/
def looksLikeComponent (name line : List Char) (following : List (List Char)) : Bool :=
  isUpperCamelCase name || contains "React".toList line ||
    contains "jsx".toList (Text.lower line) ||
    tag.occurs (['\n'].intercalate (following.take tagWindow))

/-- The issue of a component with a bad name. -/
def badComponent (f : SourceFile) (line : Nat) (m : Found) : List Issue :=
  if isUpperCamelCase (m.group 1) then []
  else [Catalogue.componentName.issue f.path line (m.column 1)
    "React component names should be UpperCamelCase."]

/-- The issues of a function declaration. -/
def declarationIssues (f : SourceFile) (text : List Char) (following : List (List Char))
    (line : Nat) (m : Found) : List Issue :=
  let name := m.group 1
  (if looksLikeComponent name text following then badComponent f line m
    else if isLowerCamelCase name then []
    else [Catalogue.scriptFunctionName.issue f.path line (m.column 1)
      "Function names should be lowerCamelCase."]) ++
  tooManyParameters Catalogue.scriptManyParams f.path line (m.column 1)
    (commaParts (m.group 2)).length

/-- The issues of a line's declarations. -/
def lineIssues (f : SourceFile) (text : List Char) (following : List (List Char)) (line : Nat) :
    List Issue :=
  let declared := fun (p : Pattern) =>
    match p.search text with
    | some m => declarationIssues f text following line m
    | none => []
  declared functionHead ++ declared arrowHead ++
    match componentClass.search text with
    | some m => badComponent f line m
    | none => []

/-- The issues of declarations, from a line number on. -/
def namingIssuesFrom (f : SourceFile) (n : Nat) : List (List Char) → List Issue
  | [] => []
  | line :: rest => lineIssues f line (line :: rest) n ++ namingIssuesFrom f (n + 1) rest

/-- A declaration of a function in a line. -/
def declaration (line : List Char) : Option Found :=
  (functionHead.search line).orElse fun _ => arrowHead.search line

/-! ## Commands -/

/-- The name of the module in quotes. -/
def moduleName : Pattern := quote ++ text "child_process" ++ quote

/-- The module as a required value. -/
def requiredModule : Pattern :=
  text "require(" ++ blanks ++ moduleName ++ blanks ++ char ')'

/-- Names in braces, kept under 1. -/
def bracedNames : Pattern :=
  char openBrace ++ blanks ++ capture 1 (plus (one (· != closeBrace))) ++ char closeBrace

/-- Names taken from the required module. -/
def requireNames : Pattern :=
  wordEdge ++ binder ++ blanks ++ bracedNames ++ blanks ++ char '=' ++ blanks ++ requiredModule

/-- A name for the required module. -/
def requireModule : Pattern :=
  wordEdge ++ binder ++ blanks1 ++ capture 1 identifier ++ blanks ++ char '=' ++ blanks ++
    requiredModule

/-- Names imported from the module. -/
def importNames : Pattern :=
  textStart ++ blanks ++ text "import" ++ blanks ++ bracedNames ++ blanks ++ text "from" ++
    blanks ++ moduleName

/-- A name for the imported module. -/
def importModule : Pattern :=
  textStart ++ blanks ++ text "import" ++ blanks1 ++ char '*' ++ blanks1 ++ text "as" ++ blanks1 ++
    capture 1 identifier ++ blanks1 ++ text "from" ++ blanks1 ++ moduleName

/-- A name for what the module exports by default. -/
def importDefault : Pattern :=
  textStart ++ blanks ++ text "import" ++ blanks1 ++ capture 1 identifier ++ blanks1 ++
    text "from" ++ blanks1 ++ moduleName

/-- A command function of a module, being called. -/
def execCall : Pattern :=
  blanks ++ char '.' ++ blanks ++ text "exec" ++ maybe (text "Sync") ++ blanks ++ char '('

/-- A command function called on the required module itself. -/
def inlineExec : Pattern := requiredModule ++ execCall

/-- Splits a text at the first occurrence of a mark. -/
def splitFirst? (mark text : List Char) : Option (List Char × List Char) :=
  if contains mark text then
    let left := before mark text
    some (left, text.drop (left.length + mark.length))
  else none

/-- The local name that one entry of a list of names binds to a command function; `mark` is
between a name and its local name. -/
def commandAlias? (mark : List Char) (entry : List Char) : Option (List Char) :=
  let entry := Text.trim entry
  let (source, name) := match splitFirst? mark entry with
    | some (left, right) => (Text.trim left, Text.trim right)
    | none => (entry, entry)
  if (source = "exec".toList ∨ source = "execSync".toList) ∧ name ≠ [] then some name else none

/-- The local names that a list of names binds to command functions. -/
def commandAliases (names : List Char) (imported : Bool) : List (List Char) :=
  let mark := if imported then " as ".toList else [':']
  ((Text.pieces ',' names).filterMap (commandAlias? mark)).eraseDups

/-- What a line binds. -/
inductive Binding where
  /-- Local names of command functions. -/
  | functions (names : List (List Char))
  /-- A local name of the module. -/
  | exports (name : List Char)

/-- What a line of code binds; the first form that fits decides. -/
def binding? (code : List Char) : Option Binding :=
  let named := fun (p : Pattern) => (p.search code).map fun m => Binding.exports (m.group 1)
  ((requireNames.search code).map fun m => .functions (commandAliases (m.group 1) false)) <|>
  named requireModule <|>
  ((importNames.search code).map fun m => .functions (commandAliases (m.group 1) true)) <|>
  named importModule <|>
  named importDefault

/-- The names that earlier lines bound. -/
structure Bound where
  functions : List (List Char)
  modules : List (List Char)

/-- The names before the first line. -/
def Bound.start : Bound := ⟨[], ["child_process".toList]⟩

/-- Adds what a line binds. -/
def Bound.add (b : Bound) : Binding → Bound
  | .functions names => { b with functions := b.functions ++ names }
  | .exports name => { b with modules := b.modules ++ [name] }

/-- A certain name that starts at the edge of a word. -/
def exactly (name : List Char) : Pattern := wordEdge ++ text (String.ofList name)

/-- Whether code runs a command, through the module itself or through a bound name. -/
def runsCommand (b : Bound) (code : List Char) : Bool :=
  inlineExec.occurs code ||
    b.functions.any (fun name => (exactly name ++ blanks ++ char '(').occurs code) ||
    b.modules.any (fun name => (exactly name ++ execCall).occurs code)

/-- The numbers of the lines that run commands, given the names bound so far. -/
def commandLines (b : Bound) (n : Nat) : List (List Char) → List Nat
  | [] => []
  | line :: rest =>
    let code := codeOf line
    match binding? code with
    | some binding => commandLines (b.add binding) (n + 1) rest
    | none =>
      if runsCommand b code then n :: commandLines b (n + 1) rest
      else commandLines b (n + 1) rest

/-- The commands that a file runs. -/
def commandIssues (f : SourceFile) : List Issue :=
  (commandLines .start 1 f.lines).map fun (n : Nat) =>
    Catalogue.scriptCommand.issue f.path n 1
      "Review child_process exec/execSync usage for command injection risks."

/-- **All issues of a JavaScript file.** -/
def check (f : SourceFile) : List Issue :=
  AnySource.check f ++ namingIssuesFrom f 1 f.lines ++
    longFunctions Catalogue.scriptLongFunction declaration f ++
    deepBlocks Catalogue.scriptNesting f ++ commandIssues f

end CodeAudit.Checks.JavaScript
