import CodeAudit.Syntax.Interpolation
import CodeAudit.Syntax.Parameters

/-!
# Expressions

The forms of expressions, from the loosest binding to the atoms, and the mistakes in them that have
a report of their own. Operators of one level are read as a chain that grows to the right.
-/

namespace CodeAudit.Syntax

/-! ## Words for expressions that stand in the wrong place -/

/-- What a report calls a kind of expression. -/
def Label.reportName : Label → String
  | .attribute _ => "attribute"
  | .subscript => "subscript"
  | .starred => "starred"
  | .name _ => "name"
  | .list => "list"
  | .tuple => "tuple"
  | .lambda => "lambda"
  | .call => "function call"
  | .boolOp | .binOp | .unaryOp => "expression"
  | .generator => "generator expression"
  | .yield | .yieldFrom => "yield expression"
  | .await => "await expression"
  | .listComp => "list comprehension"
  | .setComp => "set comprehension"
  | .dictComp => "dict comprehension"
  | .dict => "dict literal"
  | .set => "set display"
  | .joinedText | .interpolation => "f-string expression"
  | .constant .none => "None"
  | .constant .true => "True"
  | .constant .false => "False"
  | .constant .ellipsis => "ellipsis"
  | .constant _ => "literal"
  | .compare _ => "comparison"
  | .choice => "conditional expression"
  | .namedExpr => "named expression"
  | _ => "expression"

/-- What a target is for. -/
inductive TargetUse where
  | assigning
  | deleting
  | looping
  deriving Repr, DecidableEq

/-- The first part of an expression that cannot be a target. In a loop head the part before `in`
has been read as a comparison. -/
def Node.badTarget? (use : TargetUse) : Node → Option Node
  | .mk label span parts =>
    match label with
    | .list | .tuple => firstBad parts
    | .starred =>
      if use = .deleting then some (.mk label span parts)
      else headBad parts
    | .compare startsWithIn =>
      if use = .looping then
        if startsWithIn then headBad parts else none
      else some (.mk label span parts)
    | .name _ | .subscript | .attribute _ => none
    | _ => some (.mk label span parts)
where
  /-- The bad part of the first of several expressions. -/
  headBad : List Node → Option Node
    | [] => none
    | n :: _ => n.badTarget? use
  /-- The first bad part in a list of expressions. -/
  firstBad : List Node → Option Node
    | [] => none
    | n :: rest =>
      match n.badTarget? use with
      | some bad => some bad
      | none => firstBad rest

/-- Reports the first part of an expression that cannot be a target; without one the form is
missing. -/
def Parse.faultInTarget {α : Type} (use : TargetUse) (n : Node) : Parse α :=
  match n.badTarget? use with
  | none => Parse.fail
  | some bad =>
    let verb := if use = .deleting then "delete" else "assign to"
    Parse.faultAtNode bad s!"cannot {verb} {bad.label.reportName}"

open Parse

/-- One item, or several with commas between as a tuple. -/
def tupleOf (item : Parse Node) : Parse Node := do
  let t ← startToken
  let first ← item
  let more ← many (do let _ ← op ","; item)
  if more.isEmpty then
    match ← optional (op ",") with
    | some _ => build t .tuple [first]
    | none => return first
  else
    let _ ← optional (op ",")
    build t .tuple (first :: more)

/-- Operands with one operator between them, as a chain that grows to the right. -/
def operatorChain (operand : Parse Node) (symbols : List String) : Parse Node := do
  let t ← startToken
  growing operand fun left => do
    let _ ← opIn symbols
    let right ← operand
    build t .binOp [left, right]

/-- Operands with one word between them, as one node. -/
def wordChain (operand : Parse Node) (w : String) : Parse Node := do
  let t ← startToken
  let first ← operand
  let more ← many (do let _ ← word w; operand)
  if more.isEmpty then return first else build t .boolOp (first :: more)

/-- Whether an expression is the name of one of the statements that became functions. -/
def isLegacyName (n : Node) : Bool :=
  match n.label with
  | .name id => id == "print" || id == "exec"
  | _ => false

/-- The names that act as keywords in their place. -/
def softKeywords : List String := ["_", "case", "match"]

section

variable (g : Grammar)

/-! ## Mistakes -/

/-- Two expressions side by side, or a choice without its second half. -/
def mistakenExpression : Parse Node := diagnosing <|
  committed
    (do
      notAhead ((do let _ ← nameToken; let _ ← ofKind .text) <|>
        (do let _ ← token fun t => t.kind == .name && softKeywords.contains t.lexeme))
      let a ← g.one .disjunction
      let _ ← g.one .plainExpression
      return a)
    (fun a s =>
      let depth := ((s.source.tokens[s.pos - 1]?).map (·.depth)).getD 0
      if isLegacyName a || depth == 0 then .missing s
      else faultAtNode a "invalid syntax. Perhaps you forgot a comma?" s)
    (do
      let a ← g.one .disjunction
      let _ ← word "if"
      let _ ← g.one .disjunction
      notAhead ((do let _ ← word "else") <|> (do let _ ← op ":"))
      faultAtNode a "expected 'else' after 'if' expression")

/-- A former statement that is used without parentheses. -/
def mistakenLegacyCall : Parse Node := diagnosing do
  let a ← name
  notAhead (op "(")
  let _ ← g.one .starExpressions
  match a.label with
  | .name id =>
    if isLegacyName a then
      faultAtNode a s!"Missing parentheses in call to '{id}'. Did you mean {id}(...)?"
    else fail
  | _ => fail

/-- An assignment where a condition is due. -/
def mistakenName : Parse Node := firstOf [
  do
    let a ← g.one .expression
    let _ ← op ":="
    let _ ← g.one .expression
    faultAtNode a s!"cannot use assignment expressions with {a.label.reportName}",
  do
    let a ← name
    let _ ← op "="
    let _ ← g.one .bitwiseOr
    notAhead (opIn ["=", ":="])
    faultAtNode a "invalid syntax. Maybe you meant '==' or ':=' instead of '='?",
  do
    notAhead (firstOf [g.one .list, g.one .tuple, g.one .generator,
      constantWord "True", constantWord "None", constantWord "False"])
    let a ← g.one .bitwiseOr
    let _ ← op "="
    let _ ← g.one .bitwiseOr
    notAhead (opIn ["=", ":="])
    faultAtNode a
      s!"cannot assign to {a.label.reportName} here. Maybe you meant '==' instead of '='?"]
where
  /-- A keyword as a placeholder node. -/
  constantWord (w : String) : Parse Node := do
    let t ← word w
    return .mk (.constant .none) (tokenSpan t) []

/-- A loop head whose target cannot be assigned to. -/
def mistakenForTarget : Parse (List Node) := diagnosing do
  let _ ← optional (word "async")
  let _ ← word "for"
  let a ← g.one .starExpressions
  faultInTarget .looping a

/-! ## From the loosest binding to the tightest -/

/-- An expression without the forms for mistakes. -/
def plainExpression : Parse Node :=
  (do
    let t ← startToken
    let a ← g.one .disjunction
    let _ ← word "if"
    let b ← g.one .disjunction
    let _ ← word "else"
    let c ← g.one .expression
    build t .choice [b, a, c]) <|>
  g.one .disjunction <|>
  g.one .lambda

/-- An expression. -/
def expression : Parse Node :=
  mistakenExpression g <|> mistakenLegacyCall g <|> plainExpression g

/-- A lambda expression. -/
def lambda : Parse Node := do
  let t ← word "lambda"
  let params ← parameters g .ofLambda
  let _ ← op ":"
  let body ← g.one .expression
  build t .lambda [params, body]

/-- An expression, or one that is unpacked. -/
def starExpression : Parse Node :=
  (do
    let t ← op "*"
    let e ← g.one .bitwiseOr
    build t .starred [e]) <|>
  g.one .expression

/-- An unpacked argument. -/
def starredExpression : Parse Node := do
  let t ← op "*"
  let e ← g.one .expression
  build t .starred [e]

/-- An item of a display: an expression that may be named, or one that is unpacked. -/
def starNamedExpression : Parse Node :=
  (do
    let t ← op "*"
    let e ← g.one .bitwiseOr
    build t .starred [e]) <|>
  g.one .namedExpression

/-- Items of a display. -/
def starNamedExpressions : Parse (List Node) := do
  let items ← commaSeparated (g.one .starNamedExpression)
  let _ ← optional (op ",")
  return items

/-- An expression that names its value. -/
def assignmentExpression : Parse Node :=
  committed
    (do
      let t ← startToken
      let n ← name
      let _ ← op ":="
      return (t, n))
    (fun (t, n) => do
      let e ← g.one .expression
      build t .namedExpr [n, e])
    fail

/-- An expression that is not followed by a naming. -/
def unnamedExpression : Parse Node := do
  let e ← g.one .expression
  notAhead (op ":=")
  return e

/-- An expression that may be named. -/
def namedExpression : Parse Node :=
  g.one .assignmentExpression <|> diagnosing (g.one .mistakenName) <|> unnamedExpression g

/-- An expression that yields. -/
def yieldExpression : Parse Node :=
  (do
    let t ← word "yield"
    let _ ← word "from"
    let e ← g.one .expression
    build t .yieldFrom [e]) <|>
  (do
    let t ← word "yield"
    let e ← optional (g.one .starExpressions)
    build t .yield e.toList)

/-- A negation or comparison. -/
def inversion : Parse Node :=
  (do
    let t ← word "not"
    let e ← g.one .inversion
    build t .unaryOp [e]) <|>
  g.one .comparison

/-- A comparison operator; the flag says whether it is `in`. -/
def comparisonOperator : Parse Bool := firstOf [
  (do let _ ← opIn ["==", "!=", "<=", "<", ">=", ">"]; return false),
  (do let _ ← word "not"; let _ ← word "in"; return false),
  (do let _ ← word "in"; return true),
  (do let _ ← word "is"; let _ ← word "not"; return false),
  (do let _ ← word "is"; return false)]

/-- A chain of comparisons. -/
def comparison : Parse Node := do
  let t ← startToken
  let first ← g.one .bitwiseOr
  let more ← many (do
    let isIn ← comparisonOperator
    return (isIn, ← g.one .bitwiseOr))
  match more with
  | [] => return first
  | (isIn, _) :: _ => build t (.compare isIn) (first :: more.map (·.2))

/-- A signed operand. -/
def factor : Parse Node :=
  (do
    let t ← opIn ["+", "-", "~"]
    let e ← g.one .factor
    build t .unaryOp [e]) <|>
  g.one .power

/-- A power. -/
def power : Parse Node := do
  let t ← startToken
  let base ← g.one .awaitPrimary
  match ← optional (do let _ ← op "**"; g.one .factor) with
  | some e => build t .binOp [base, e]
  | none => return base

/-- An awaited operand. -/
def awaitPrimary : Parse Node :=
  (do
    let t ← word "await"
    let e ← g.one .primary
    build t .await [e]) <|>
  g.one .primary

/-- The arguments between parentheses. -/
def callArguments : Parse (List Node) := do
  let _ ← op "("
  let found ← optional (g .arguments)
  let _ ← op ")"
  return found.getD []

/-- One step behind a primary that starts at a token: an attribute, a call or a subscript. -/
def trailer (t : Token) (left : Node) : Parse Node := firstOf [
  do
    let _ ← op "."
    let n ← nameToken
    build t (.attribute (nameOf n)) [left],
  do
    let e ← g.one .generator
    build t .call [left, e],
  do
    let found ← callArguments g
    build t .call (left :: found),
  do
    let _ ← op "["
    let s ← g.one .slices
    let _ ← op "]"
    build t .subscript [left, s]]

/-- An atom with everything that is called or taken from it. -/
def primary : Parse Node := do
  let t ← startToken
  growing (g.one .atom) (trailer g t)

/-- The inside of a subscript. -/
def slices : Parse Node :=
  (do
    let s ← g.one .slice
    notAhead (op ",")
    return s) <|>
  (do
    let t ← startToken
    let items ← commaSeparated (g.one .slice <|> starredExpression g)
    let _ ← optional (op ",")
    build t .tuple items)

/-- A range of indices, or one index. -/
def slice : Parse Node :=
  (do
    let t ← startToken
    let low ← optional (g.one .expression)
    let _ ← op ":"
    let high ← optional (g.one .expression)
    let step ← optional (do let _ ← op ":"; optional (g.one .expression))
    build t .slice (low.toList ++ high.toList ++ (step.bind id).toList)) <|>
  g.one .namedExpression

end

end CodeAudit.Syntax
