import CodeAudit.Syntax.Patterns

/-!
# Statements

Simple statements on a line, compound statements with their blocks, and the mistakes in them that
have a report of their own: a missing colon, a block that is not indented, a target that is none.
-/

namespace CodeAudit.Syntax

open Parse

section

variable (g : Grammar)

/-! ## Simple statements -/

/-- The operators that assign to what they also read. -/
def augmentedOperators : List String :=
  ["+=", "-=", "*=", "@=", "/=", "%=", "&=", "|=", "^=", "<<=", ">>=", "**=", "//="]

/-- The right side of an assignment. -/
def assignedValue : Parse Node := g.one .yieldExpression <|> g.one .starExpressions

/-- The annotation of a target and the value given to it. -/
def annotationOf (t : Token) (target : Node) : Parse Node := do
  let _ ← op ":"
  let e ← g.one .expression
  let v ← optional (do let _ ← op "="; assignedValue g)
  build t .annAssign (target :: e :: v.toList)

/-- A list or tuple in the place of an annotated target. -/
def mistakenHint : Parse Node :=
  g.one .list <|> g.one .tuple <|> do
    let _ ← op "("
    let a ← g.one .mistakenHint
    let _ ← op ")"
    return a

/-- Reports on what is assigned to but is no target. -/
def mistakenAssignment : Parse Node := diagnosing <|
  (do
    let a ← g.one .mistakenHint
    let _ ← op ":"
    let _ ← g.one .expression
    faultAtNode a s!"only single target (not {a.label.reportName}) can be annotated") <|>
  (do
    let a ← g.one .starNamedExpression
    let _ ← op ","
    let _ ← many (g .starNamedExpressions)
    let _ ← op ":"
    let _ ← g.one .expression
    faultAtNode a "only single target (not tuple) can be annotated") <|>
  (do
    let a ← g.one .expression
    let _ ← op ":"
    let _ ← g.one .expression
    faultAtNode a "illegal target for annotation") <|>
  committed
    (do
      let _ ← many (do let _ ← g.one .starTargets; op "=")
      let a ← g.one .starExpressions
      let _ ← op "="
      return a)
    (faultInTarget .assigning)
    ((do
      let _ ← many (do let _ ← g.one .starTargets; op "=")
      let a ← g.one .yieldExpression
      let _ ← op "="
      faultAtNode a "assignment to yield expression not possible") <|>
    (do
      let a ← g.one .starExpressions
      let _ ← opIn augmentedOperators
      let _ ← assignedValue g
      faultAtNode a
        s!"'{a.label.reportName}' is an illegal expression for augmented assignment"))

/-- An assignment of any kind. -/
def assignment : Parse Node :=
  (do
    let t ← startToken
    let n ← name
    annotationOf g t n) <|>
  (do
    let t ← startToken
    let target ← (do
      let _ ← op "("
      let e ← g.one .singleTarget
      let _ ← op ")"
      return e) <|> g.one .singleSubscriptAttributeTarget
    annotationOf g t target) <|>
  (do
    let t ← startToken
    let targets ← some1 (do
      let e ← g.one .starTargets
      let _ ← op "="
      return e)
    let v ← assignedValue g
    notAhead (op "=")
    build t .assign (targets ++ [v])) <|>
  committed
    (do
      let t ← startToken
      let target ← g.one .singleTarget
      let _ ← opIn augmentedOperators
      return (t, target))
    (fun (t, target) => do
      let v ← assignedValue g
      build t .augAssign [target, v])
    (mistakenAssignment g)

/-- A name with dots in it, joined. -/
def dottedName : Parse String := do
  let first ← nameToken
  let more ← many (do let _ ← op "."; nameToken)
  return ".".intercalate ((first :: more).map nameOf)

/-- An imported module with its other name. -/
def importedModule : Parse Node := do
  let t ← startToken
  let n ← dottedName
  let _ ← optional (do let _ ← word "as"; nameToken)
  build t (.alias n) []

/-- An imported member with its other name. -/
def importedMember : Parse Node := do
  let t ← nameToken
  let _ ← optional (do let _ ← word "as"; nameToken)
  build t (.alias (nameOf t)) []

/-- What is imported from a module. -/
def importedMembers : Parse (List Node) := firstOf [
  (do
    let _ ← op "("
    let items ← commaSeparated importedMember
    let _ ← optional (op ",")
    let _ ← op ")"
    return items),
  (do
    let items ← commaSeparated importedMember
    notAhead (op ",")
    return items),
  (do
    let t ← op "*"
    return [.mk (.alias "*") (tokenSpan t) []]),
  diagnosing (do
    let _ ← commaSeparated importedMember
    let _ ← op ","
    let _ ← newline
    faultHere "trailing comma not allowed without surrounding parentheses")]

/-- An import. -/
def importStatement : Parse Node := firstOf [
  (do
    let t ← word "import"
    let items ← commaSeparated importedModule
    build t .importNames items),
  (do
    let t ← word "from"
    let _ ← many (opIn [".", "..."])
    let m ← dottedName
    let _ ← word "import"
    let items ← importedMembers
    build t (.importFrom (some m)) items),
  (do
    let t ← word "from"
    let _ ← some1 (opIn [".", "..."])
    let _ ← word "import"
    let items ← importedMembers
    build t (.importFrom none) items)]

/-- A statement that is a keyword with optional parts. -/
def wordStatement : Parse Node := firstOf [
  (do
    let t ← word "return"
    let e ← optional (g.one .starExpressions)
    build t .returning e.toList),
  importStatement,
  (do
    let t ← word "raise"
    let e ← g.one .expression
    let cause ← optional (do let _ ← word "from"; g.one .expression)
    build t .raising (e :: cause.toList)),
  (do
    let t ← word "raise"
    build t .raising []),
  (do
    let t ← word "pass"
    build t .pass []),
  (do
    let t ← word "del"
    let items ← g .delTargets
    ahead ((do let _ ← op ";") <|> (do let _ ← newline))
    build t .delete items),
  diagnosing (do
    let _ ← word "del"
    let e ← g.one .starExpressions
    faultInTarget .deleting e),
  (do
    let t ← startToken
    ahead (word "yield")
    let e ← g.one .yieldExpression
    build t .exprStatement [e]),
  (do
    let t ← word "assert"
    let e ← g.one .expression
    let m ← optional (do let _ ← op ","; g.one .expression)
    build t .assertion (e :: m.toList)),
  (do
    let t ← word "break"
    build t .breaking []),
  (do
    let t ← word "continue"
    build t .continuing []),
  (do
    let t ← word "global"
    let _ ← commaSeparated nameToken
    build t .globalNames []),
  (do
    let t ← word "nonlocal"
    let _ ← commaSeparated nameToken
    build t .nonlocalNames [])]

/-- A simple statement. -/
def simpleStatement : Parse Node := firstOf [
  assignment g,
  (do
    let t ← startToken
    let e ← g.one .starExpressions
    build t .exprStatement [e]),
  wordStatement g]

/-- The simple statements of a line. -/
def simpleStatements : Parse (List Node) :=
  (do
    let s ← g.one .simpleStatement
    notAhead (op ";")
    let _ ← newline
    return [s]) <|>
  (do
    let items ← separated (g.one .simpleStatement) (op ";")
    let _ ← optional (op ";")
    let _ ← newline
    return items)

/-! ## Blocks -/

/-- Reports a block that is not indented. -/
def notIndented {α : Type} (what : String) (t : Token) : Parse α := do
  let _ ← newline
  notAhead (ofKind .indent)
  faultHere s!"expected an indented block after {what} on line {t.line}"

/-- Reports a missing colon at the end of a line. -/
def noColon {α : Type} : Parse α := do
  let _ ← newline
  faultHere "expected ':'"

/-- An indented block, or the statements behind the colon. -/
def block : Parse (List Node) := firstOf [
  (do
    let _ ← newline
    let _ ← ofKind .indent
    let body ← g .statements
    let _ ← ofKind .dedent
    return body),
  g .simpleStatements,
  diagnosing (do
    let _ ← newline
    notAhead (ofKind .indent)
    faultHere "expected an indented block")]

/-- The block behind `else`. -/
def elseBlock : Parse (List Node) :=
  diagnosing (do
    let t ← word "else"
    let _ ← op ":"
    notIndented "'else' statement" t) <|>
  (do
    let _ ← word "else"
    let _ ← forced ":"
    g .block)

/-- The block behind `else`, if there is one. -/
def optionalElse : Parse (List Node) := do return (← optional (g .elseBlock)).getD []

/-- Mistakes in a statement that tests a condition. -/
def mistakenCondition {α : Type} (w : String) : Parse α := diagnosing <| firstOf [
  (do
    let _ ← word w
    let _ ← g.one .namedExpression
    noColon),
  (do
    let t ← word w
    let _ ← g.one .namedExpression
    let _ ← op ":"
    notIndented s!"'{w}' statement" t)]

/-- A branch: `if` or `elif`, with the branches behind it. -/
def branch (w : String) : Parse Node :=
  mistakenCondition g w <|>
  (do
    let t ← word w
    let test ← g.one .namedExpression
    let _ ← op ":"
    let body ← g .block
    let next ← g.one .elifStatement
    build t .conditional (test :: body ++ [next])) <|>
  (do
    let t ← word w
    let test ← g.one .namedExpression
    let _ ← op ":"
    let body ← g .block
    let other ← optionalElse g
    build t .conditional (test :: body ++ other))

/-- A `while` loop. -/
def whileStatement : Parse Node :=
  mistakenCondition g "while" <|> do
    let t ← word "while"
    let test ← g.one .namedExpression
    let _ ← op ":"
    let body ← g .block
    let other ← optionalElse g
    build t .whileLoop (test :: body ++ other)

/-- A `for` loop. Behind `in` there is no way back. -/
def forStatement : Parse Node :=
  diagnosing (firstOf [
    (do
      let _ ← optional (word "async")
      let _ ← word "for"
      let _ ← g.one .starTargets
      let _ ← word "in"
      let _ ← g.one .starExpressions
      noColon),
    (do
      let _ ← optional (word "async")
      let t ← word "for"
      let _ ← g.one .starTargets
      let _ ← word "in"
      let _ ← g.one .starExpressions
      let _ ← op ":"
      notIndented "'for' statement" t)]) <|>
  committed (head (pure ())) (rest false)
    (committed (head (do let _ ← word "async")) (rest true) (do
      match ← mistakenForTarget g with
      | n :: _ => return n
      | [] => fail))
where
  /-- The loop head up to `in`. -/
  head (mark : Parse Unit) : Parse (Token × Node) := do
    let t ← startToken
    mark
    let _ ← word "for"
    let target ← g.one .starTargets
    let _ ← word "in"
    return (t, target)
  /-- What is looped over, and the blocks. -/
  rest (isAsync : Bool) : Token × Node → Parse Node := fun (t, target) => do
    let source ← g.one .starExpressions
    let _ ← op ":"
    let body ← g .block
    let other ← optionalElse g
    build t (.forLoop isAsync) (target :: source :: body ++ other)

/-- An item of a `with` statement. -/
def withItem : Parse Node := firstOf [
  (do
    let t ← startToken
    let e ← g.one .expression
    let _ ← word "as"
    let target ← g.one .starTarget
    ahead (opIn [",", ")", ":"])
    build t .withItem [e, target]),
  diagnosing (do
    let _ ← g.one .expression
    let _ ← word "as"
    let a ← g.one .expression
    ahead (opIn [",", ")", ":"])
    faultInTarget .assigning a),
  (do
    let t ← startToken
    let e ← g.one .expression
    build t .withItem [e])]

/-- A `with` statement. -/
def withStatement : Parse Node := firstOf [
  diagnosing (firstOf [
    (do
      let _ ← optional (word "async")
      let t ← word "with"
      plainItems
      let _ ← op ":"
      notIndented "'with' statement" t),
    (do
      let _ ← optional (word "async")
      let t ← word "with"
      groupedItems
      let _ ← op ":"
      notIndented "'with' statement" t)]),
  form false (pure ()) grouped,
  form false (pure ()) plain,
  form true (do let _ ← word "async") grouped,
  form true (do let _ ← word "async") plain,
  diagnosing (firstOf [
    (do
      let _ ← optional (word "async")
      let _ ← word "with"
      plainItems
      noColon),
    (do
      let _ ← optional (word "async")
      let _ ← word "with"
      groupedItems
      noColon)])]
where
  /-- Items in parentheses. -/
  grouped : Parse (List Node) := do
    let _ ← op "("
    let items ← commaSeparated (withItem g)
    let _ ← optional (op ",")
    let _ ← op ")"
    return items
  /-- Items without parentheses. -/
  plain : Parse (List Node) := commaSeparated (withItem g)
  /-- The statement, with its items in one of the two ways. -/
  form (isAsync : Bool) (mark : Parse Unit) (items : Parse (List Node)) : Parse Node := do
    let t ← startToken
    mark
    let _ ← word "with"
    let items ← items
    let _ ← op ":"
    let body ← g .block
    build t (.withBlock isAsync) (items ++ body)
  /-- Items as far as a report needs them. -/
  plainItems : Parse Unit := do
    let _ ← commaSeparated (do
      let _ ← g.one .expression
      optional (do let _ ← word "as"; g.one .starTarget))
  /-- Items in parentheses as far as a report needs them. -/
  groupedItems : Parse Unit := do
    let _ ← op "("
    let _ ← commaSeparated (do
      let _ ← g.one .expressions
      optional (do let _ ← word "as"; g.one .starTarget))
    let _ ← optional (op ",")
    let _ ← op ")"

/-! ## Handlers -/

/-- The name that a handler gives to what it caught. -/
def handlerName : Parse Unit := do
  let _ ← optional (do let _ ← word "as"; nameToken)

/-- Reports on handlers. -/
def mistakenHandler {α : Type} : Parse α := diagnosing <| firstOf [
  (do
    let _ ← word "except"
    let _ ← optional (op "*")
    let a ← g.one .expression
    let _ ← op ","
    let _ ← g.one .expressions
    handlerName
    let _ ← op ":"
    faultAtNode a "multiple exception types must be parenthesized"),
  (do
    let _ ← word "except"
    let _ ← optional (op "*")
    let _ ← g.one .expression
    handlerName
    noColon),
  (do
    let _ ← word "except"
    noColon),
  (do
    let _ ← word "except"
    let _ ← op "*"
    (do let _ ← newline) <|> (do let _ ← op ":")
    faultHere "expected one or more exception types")]

/-- A handler. -/
def handler : Parse Node := firstOf [
  diagnosing (firstOf [
    (do
      let t ← word "except"
      let _ ← g.one .expression
      handlerName
      let _ ← op ":"
      notIndented "'except' statement" t),
    (do
      let t ← word "except"
      let _ ← op ":"
      notIndented "'except' statement" t)]),
  (do
    let t ← word "except"
    let e ← g.one .expression
    handlerName
    let _ ← op ":"
    let body ← g .block
    build t .exceptHandler (e :: body)),
  (do
    let t ← word "except"
    let _ ← op ":"
    let body ← g .block
    build t .exceptHandler body),
  mistakenHandler g]

/-- A handler for groups. -/
def starHandler : Parse Node := firstOf [
  diagnosing (do
    let t ← word "except"
    let _ ← op "*"
    let _ ← g.one .expression
    handlerName
    let _ ← op ":"
    notIndented "'except*' statement" t),
  (do
    let t ← word "except"
    let _ ← op "*"
    let e ← g.one .expression
    handlerName
    let _ ← op ":"
    let body ← g .block
    build t .exceptHandler (e :: body)),
  mistakenHandler g]

/-- The block behind `finally`. -/
def finallyBlock : Parse (List Node) :=
  diagnosing (do
    let t ← word "finally"
    let _ ← op ":"
    notIndented "'finally' statement" t) <|>
  (do
    let _ ← word "finally"
    let _ ← forced ":"
    g .block)

/-- A `try` statement. -/
def tryStatement : Parse Node := firstOf [
  diagnosing (firstOf [
    (do
      let t ← word "try"
      let _ ← op ":"
      notIndented "'try' statement" t),
    (do
      let _ ← word "try"
      let _ ← op ":"
      let _ ← g .block
      notAhead (word "except" <|> word "finally")
      faultHere "expected 'except' or 'finally' block"),
    (do
      let _ ← word "try"
      let _ ← op ":"
      let _ ← many (g .block)
      (do
        let _ ← some1 (handler g)
        let _ ← starHandler g) <|> (do
        let _ ← some1 (starHandler g)
        let _ ← handler g)
      let _ ← many (g .block)
      faultHere "cannot have both 'except' and 'except*' on the same 'try'")]),
  (do
    let t ← word "try"
    let _ ← forced ":"
    let body ← g .block
    let last ← finallyBlock g
    build t .tryBlock (body ++ last)),
  (do
    let t ← word "try"
    let _ ← forced ":"
    let body ← g .block
    let handlers ← some1 (handler g)
    let (other, last) ← ending
    build t .tryBlock (body ++ handlers ++ other ++ last)),
  (do
    let t ← word "try"
    let _ ← forced ":"
    let body ← g .block
    let handlers ← some1 (starHandler g)
    let (other, last) ← ending
    build t .tryStar (body ++ handlers ++ other ++ last))]
where
  /-- The blocks behind the handlers. -/
  ending : Parse (List Node × List Node) := do
    let other ← optionalElse g
    let last := (← optional (finallyBlock g)).getD []
    return (other, last)

/-! ## Definitions -/

/-- The result annotation of a function. -/
def resultHint : Parse (Option Node) :=
  optional (do let _ ← op "->"; g.one .expression)

/-- A function definition behind its decorators. -/
def functionDef (decorators : List Node) : Parse Node := firstOf [
  diagnosing (do
    let _ ← optional (word "async")
    let t ← word "def"
    let _ ← nameToken
    let _ ← op "("
    let _ ← parameters g .ofFunction
    let _ ← op ")"
    let _ ← resultHint g
    let _ ← op ":"
    notIndented "function definition" t),
  form false (pure ()),
  form true (do let _ ← word "async")]
where
  /-- The definition, plain or asynchronous. -/
  form (isAsync : Bool) (mark : Parse Unit) : Parse Node := do
    let t ← startToken
    mark
    let _ ← word "def"
    let n ← nameToken
    let _ ← forced "("
    let params ← parameters g .ofFunction
    let _ ← op ")"
    let result ← resultHint g
    let _ ← forced ":"
    let body ← g .block
    build t (.functionDef isAsync (nameOf n)) (params :: body ++ decorators ++ result.toList)

/-- The bases and keywords of a class. -/
def classArguments : Parse (List Node) := do
  let found ← optional (callArguments g)
  return found.getD []

/-- A class definition behind its decorators. -/
def classDef (decorators : List Node) : Parse Node := firstOf [
  diagnosing (firstOf [
    (do
      let _ ← word "class"
      let _ ← nameToken
      let _ ← classArguments g
      noColon),
    (do
      let t ← word "class"
      let _ ← nameToken
      let _ ← classArguments g
      let _ ← op ":"
      notIndented "class definition" t)]),
  (do
    let t ← word "class"
    let n ← nameToken
    let bases ← classArguments g
    let _ ← op ":"
    let body ← g .block
    build t (.classDef (nameOf n)) (bases ++ body ++ decorators))]

/-- Decorators in front of a definition. -/
def decorators : Parse (List Node) := some1 do
  let _ ← op "@"
  let e ← g.one .namedExpression
  let _ ← newline
  return e

/-- A definition with or without decorators. -/
def decorated (definition : List Node → Parse Node) : Parse Node :=
  (do
    let ds ← decorators g
    definition ds) <|>
  definition []

/-! ## Matches -/

/-- What a match statement looks at. -/
def matchSubject : Parse Node :=
  (do
    let t ← startToken
    let first ← g.one .starNamedExpression
    let _ ← op ","
    let more ← optional (g .starNamedExpressions)
    build t .tuple (first :: more.getD [])) <|>
  g.one .namedExpression

/-- The condition of a case. -/
def caseGuard : Parse (Option Node) :=
  optional (do let _ ← word "if"; g.one .namedExpression)

/-- A case of a match statement. -/
def caseBlock : Parse Node := firstOf [
  diagnosing (firstOf [
    (do
      let _ ← softWord "case"
      let _ ← g.one .patterns
      let _ ← caseGuard g
      noColon),
    (do
      let t ← softWord "case"
      let _ ← g.one .patterns
      let _ ← caseGuard g
      let _ ← op ":"
      notIndented "'case' statement" t)]),
  (do
    let t ← softWord "case"
    let p ← g.one .patterns
    let guard ← caseGuard g
    let _ ← op ":"
    let body ← g .block
    build t .matchCase (p :: guard.toList ++ body))]

/-- A match statement. -/
def matchStatement : Parse Node := firstOf [
  (do
    let t ← softWord "match"
    let subject ← matchSubject g
    let _ ← op ":"
    let _ ← newline
    let _ ← ofKind .indent
    let cases ← some1 (caseBlock g)
    let _ ← ofKind .dedent
    build t .matching (subject :: cases)),
  diagnosing (firstOf [
    (do
      let _ ← softWord "match"
      let _ ← matchSubject g
      noColon),
    (do
      let t ← softWord "match"
      let _ ← matchSubject g
      let _ ← op ":"
      notIndented "'match' statement" t)])]

/-- A compound statement, told by its first word. -/
def compoundStatement : Parse Node := firstOf [
  (do
    ahead ((do let _ ← word "def") <|> (do let _ ← op "@") <|> (do let _ ← word "async"))
    decorated g (functionDef g)),
  (do ahead (word "if"); branch g "if"),
  (do
    ahead ((do let _ ← word "class") <|> (do let _ ← op "@"))
    decorated g (classDef g)),
  (do ahead (word "with" <|> word "async"); withStatement g),
  (do ahead (word "for" <|> word "async"); forStatement g),
  (do ahead (word "try"); tryStatement g),
  (do ahead (word "while"); whileStatement g),
  matchStatement g]

/-- A statement, or the simple statements of a line. -/
def statement : Parse (List Node) :=
  (do return [← g.one .compoundStatement]) <|> g .simpleStatements

/-- Statements up to where none follows. -/
def statements : Parse (List Node) := do return (← some1 (g .statement)).flatten

/-- A whole module. -/
def moduleBody : Parse Node := do
  let body ← optional (g .statements)
  let _ ← ofKind .stop
  return .mk .module ⟨0, 0, 0, 0, 0⟩ (body.getD [])

end

end CodeAudit.Syntax
