import CodeAudit.Checks.Classes
import CodeAudit.Checks.Markers
import CodeAudit.Machine
import CodeAudit.Syntax.Source

/-!
# Checks of Python source

Besides the line checks, Python source is read into a syntax tree. Source that does not parse is
reported and not examined further; otherwise every node is looked at, level by level, for risky
calls, broad handlers and functions and classes out of bounds, and the module as a whole for its
nesting, imports and size.
-/

namespace CodeAudit.Checks.Python

open Syntax Pattern

/-- Bounds on functions, classes and modules. -/
def maxFunctionLines : Nat := 60
def maxParams : Nat := 6
def maxNesting : Nat := 4
def maxImports : Nat := 20
def maxMethods : Nat := 15
def maxFunctions : Nat := 20

/-! ## Calls -/

/-- The name that a call calls directly. -/
def calledName? (n : Node) : Option String :=
  match n.label, n.parts with
  | .call, f :: _ =>
    match f.label with
    | .name id => some id
    | _ => none
  | _, _ => none

/-- The name and the attribute of a node that takes an attribute from a name. -/
def attributeOfName? (n : Node) : Option (String × String) :=
  match n.label, n.parts with
  | .attribute attr, value :: _ =>
    match value.label with
    | .name id => some (id, attr)
    | _ => none
  | _, _ => none

/-- The name and the attribute that a call calls. -/
def calledAttribute? (n : Node) : Option (String × String) :=
  match n.label, n.parts with
  | .call, f :: _ => attributeOfName? f
  | _, _ => none

/-- The value of the first keyword argument with a name. -/
def keywordValue? (n : Node) (name : String) : Option Node :=
  (n.parts.find? fun p => p.label == .keyword (some name)).bind (·.parts.head?)

/-- Whether a node is a certain constant. -/
def isConstant (value : Literal) (n : Node) : Bool := n.label == .constant value

/-- A call of a process function with `shell=True`. -/
def callsShell (n : Node) : Bool :=
  match calledAttribute? n with
  | some ("subprocess", f) =>
    ["run", "Popen", "call", "check_call", "check_output"].contains f &&
      (keywordValue? n "shell").any (isConstant .true)
  | _ => false

/-- A call of `yaml.load` without the safe loader. -/
def loadsYaml (n : Node) : Bool :=
  match calledAttribute? n with
  | some ("yaml", "load") =>
    match keywordValue? n "Loader" with
    | none => true
    | some loader => attributeOfName? loader != some ("yaml", "SafeLoader")
  | _ => false

/-- A call that reads a pickle. -/
def loadsPickle (n : Node) : Bool :=
  match calledAttribute? n with
  | some ("pickle", f) => f == "load" || f == "loads"
  | _ => false

/-- A request with `verify=False`. -/
def skipsVerification (n : Node) : Bool :=
  match calledAttribute? n with
  | some ("requests", f) =>
    ["get", "post", "put", "patch", "delete", "request", "head", "options"].contains f &&
      (keywordValue? n "verify").any (isConstant .false)
  | _ => false

/-! ## Handlers -/

/-- Whether an exception type catches nearly everything. -/
def isBroadType : Node → Bool
  | .mk label _ parts =>
    match label with
    | .name id => id == "Exception" || id == "BaseException"
    | .tuple => anyBroad parts
    | _ => false
where
  /-- Whether any of several types does. -/
  anyBroad : List Node → Bool
    | [] => false
    | n :: rest => isBroadType n || anyBroad rest

/-- Whether a handler is bare or catches nearly everything. -/
def isBroadHandler (n : Node) : Bool :=
  n.label == .exceptHandler &&
    match n.parts with
    | first :: _ => first.label.isStatement || isBroadType first
    | [] => true

/-! ## Names -/

/-- Whether a function may have a name: snake case, or two underscores on both sides. -/
def allowsFunctionName (name : String) : Bool :=
  let text := name.toList
  (startsWith text "__" && ['_', '_'].isSuffixOf text) || snakeCase.matchesAll text

/-! ## Nodes -/

/-- The issue of a rule at a node. -/
def atNode (f : SourceFile) (r : RuleInfo) (n : Node) (message : String) : Issue :=
  r.issue f.path n.span.line (n.span.col - n.span.shift + 1 : Nat) message

/-- The parameters that count towards the bound on a function: all but the positional-only ones. -/
def countedParams (function : Node) : Nat :=
  match function.parts with
  | arguments :: _ =>
    (arguments.parts.filter fun p =>
      match p.label with
      | .param role _ => role != .positionalOnly
      | _ => false).length
  | [] => 0

/-- The issues of a function definition. -/
def functionIssues (f : SourceFile) (n : Node) (name : String) : List Issue :=
  let lines := n.span.endLine - n.span.line + 1
  let params := countedParams n
  (if allowsFunctionName name then [] else
    [atNode f Catalogue.pythonFunctionName n "Function names should be snake_case."]) ++
  (if maxFunctionLines < lines then
    [atNode f Catalogue.pythonLongFunction n
      s!"Function spans {lines} lines; target at most {maxFunctionLines}."] else []) ++
  (if maxParams < params then
    [atNode f Catalogue.pythonManyParams n
      s!"Function has {params} parameters; target at most {maxParams}."] else [])

/-- The issues of a single node. -/
def nodeIssues (f : SourceFile) (n : Node) : List Issue :=
  let report := fun (holds : Bool) (r : RuleInfo) (message : String) =>
    if holds then [atNode f r n message] else []
  (match calledName? n with
    | some name => report (name == "eval" || name == "exec") Catalogue.dynamicExecution
        s!"Avoid {name}() because it executes dynamic code."
    | none => []) ++
  report (isBroadHandler n) Catalogue.broadExcept
    "Avoid bare except or except Exception; catch specific errors." ++
  report (callsShell n) Catalogue.shellTrue
    "Avoid subprocess calls with shell=True; pass argument arrays instead." ++
  report (loadsYaml n) Catalogue.yamlLoad
    "Use yaml.safe_load() or pass Loader=yaml.SafeLoader to yaml.load()." ++
  report (loadsPickle n) Catalogue.pickleLoad
    "Avoid pickle.load()/loads() on untrusted data; use safer formats." ++
  report (skipsVerification n) Catalogue.verifyFalse
    "requests call with verify=False disables TLS certificate validation." ++
  (match n.label with
    | .functionDef _ name => functionIssues f n name
    | .classDef name =>
      report (!isUpperCamelCase name.toList) Catalogue.pythonClassName
        "Class names should be UpperCamelCase."
    | _ => [])

/-! ## Modules and classes -/

/-- The part of a dotted name before its first dot. -/
def firstName (dotted : String) : String :=
  String.ofList (dotted.toList.takeWhile (· ≠ '.'))

/-- The packages that a node imports from. -/
def importedNames (n : Node) : List String :=
  match n.label with
  | .importNames => n.parts.filterMap fun p =>
      match p.label with
      | .alias name => some (firstName name)
      | _ => none
  | .importFrom (some m) => [firstName m]
  | _ => []

/-- The number of packages that a tree imports from. -/
def importFanOut (tree : Node) : Nat := (distinct (tree.walk.flatMap importedNames)).length

/-- The fields of `self` that a method uses. -/
def selfFields (method : Node) : List String :=
  distinct (method.walk.filterMap fun n =>
    match attributeOfName? n with
    | some ("self", field) => some field
    | _ => none)

/-- The name of a function definition. -/
def functionName? (n : Node) : Option String :=
  match n.label with
  | .functionDef _ name => some name
  | _ => none

/-- The name of a class definition. -/
def className? (n : Node) : Option String :=
  match n.label with
  | .classDef name => some name
  | _ => none

/-- The functions directly in a body. -/
def functionsIn (n : Node) : List Node := n.statements.filter (functionName? · |>.isSome)

/-- The cohesion of methods. -/
def methodCohesion (methods : List Node) : Option Float := cohesion (methods.map selfFields)

/-- The issues of a class as a whole. -/
def classIssues (f : SourceFile) (n : Node) (name : String) : List Issue :=
  let methods := (functionsIn n).filter fun m =>
    !(functionName? m).any fun name => startsWith name.toList "__"
  (if maxMethods < methods.length then
    [atNode f Catalogue.pythonManyMethods n
      s!"Class '{name}' declares {methods.length} methods; target at most {maxMethods}."]
    else []) ++
  (match methodCohesion methods with
    | some score =>
      if score < leastCohesion then
        [atNode f Catalogue.pythonCohesion n
          (s!"Class '{name}' methods share little common state "
            ++ s!"(cohesion score {Number.fixed 2 score}).")]
      else []
    | none => [])

/-- The issues of a module as a whole. -/
def moduleIssues (f : SourceFile) (tree : Node) : List Issue :=
  let fanOut := importFanOut tree
  let functions := (functionsIn tree).length
  (if maxImports < fanOut then
    [Catalogue.pythonFanOut.issue f.path 1 1
      s!"Module imports {fanOut} dependencies; consider reducing coupling."] else []) ++
  (if maxFunctions < functions then
    [Catalogue.pythonLargeModule.issue f.path 1 1
      (s!"Module defines {functions} top-level functions; "
        ++ "consider splitting by responsibility.")] else []) ++
  tree.statements.flatMap fun n =>
    match className? n with
    | some name => classIssues f n name
    | none => []

/-- The issues that the syntax tree of a file shows. -/
def treeIssues (f : SourceFile) : List Issue :=
  match parse f.text with
  | .error fault =>
    [Catalogue.syntaxError.issue f.path (max 1 fault.line : Nat) (max 1 fault.column : Nat)
      s!"Could not parse file: {fault.message}"]
  | .ok tree =>
    let depth := tree.nesting
    tree.walk.flatMap (nodeIssues f) ++
    (if maxNesting < depth then
      [Catalogue.pythonNesting.issue f.path 1 1
        s!"Maximum nesting depth is {depth}; keep it at or below {maxNesting}."] else []) ++
    moduleIssues f tree

/-- **All issues of a Python file.** -/
def check (f : SourceFile) : List Issue :=
  workItems f ++ secrets "=" f ++ treeIssues f

/-! ## The stack -/

/-- The most levels of a tree that can be built, where there is room to go down `levels` of them: a
level takes a third as much of the stack, and what the measuring itself takes is still free.
Contexts take nothing. -/
def buildable (levels : Nat) : Nat := 3 * (levels + 2)

/-- **What overflows when a source is examined.** The parser can give up on any source, also on one
that is at fault. -/
def overflow? (stack : Stack) (text : List Char) : Option Overflow :=
  match stack.source? text, parse text with
  | some complaint, _ => some (.reading complaint)
  | none, .error _ => none
  | none, .ok tree =>
    if buildable stack.levels < tree.height then some .building
    else if stack.levels < tree.reach then some .measuring
    else none

end CodeAudit.Checks.Python
