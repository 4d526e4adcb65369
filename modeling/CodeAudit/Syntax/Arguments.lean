import CodeAudit.Syntax.Expressions

/-!
# Arguments of calls

Positional arguments, then keyword arguments, with unpacking in either part. In the tree the
unpacked iterables stand with the positional arguments, in front of all keywords.
-/

namespace CodeAudit.Syntax

open Parse

/-- Whether a node is a keyword argument. -/
def Node.isKeyword (n : Node) : Bool :=
  match n.label with
  | .keyword _ => true
  | _ => false

section

variable (g : Grammar)

/-- Reports on keyword arguments that cannot be any. -/
def mistakenKeyword : Parse Node := diagnosing <| firstOf [
  do
    let t ← token fun t => t.kind == .keyword && ["True", "False", "None"].contains t.lexeme
    let _ ← op "="
    faultAtToken t s!"cannot assign to {t.lexeme}",
  do
    let t ← nameToken
    let _ ← op "="
    let _ ← g.one .expression
    let _ ← g .forIfClauses
    faultAtToken t "invalid syntax. Maybe you meant '==' or ':=' instead of '='?",
  do
    notAhead (do let _ ← nameToken; op "=")
    let a ← g.one .expression
    let _ ← op "="
    faultAtNode a "expression cannot contain assignment, perhaps you meant \"==\"?"]

/-- A named argument. -/
def namedArgument : Parse Node := do
  let t ← nameToken
  let _ ← op "="
  let e ← g.one .expression
  build t (.keyword (some (nameOf t))) [e]

/-- A keyword argument or an unpacked iterable. -/
def keywordOrStarred : Parse Node :=
  mistakenKeyword g <|> namedArgument g <|> starredExpression g

/-- A keyword argument or an unpacked mapping. -/
def keywordOrDoubleStarred : Parse Node :=
  mistakenKeyword g <|> namedArgument g <|> do
    let t ← op "**"
    let e ← g.one .expression
    build t (.keyword none) [e]

/-- Keyword arguments. -/
def keywordArguments : Parse (List Node) :=
  (do
    let a ← commaSeparated (keywordOrStarred g)
    let _ ← op ","
    let b ← commaSeparated (keywordOrDoubleStarred g)
    return a ++ b) <|>
  commaSeparated (keywordOrStarred g) <|>
  commaSeparated (keywordOrDoubleStarred g)

/-- A positional argument. -/
def positionalArgument : Parse Node :=
  starredExpression g <|> do
    let e ← g.one .assignmentExpression <|> unnamedExpression g
    notAhead (op "=")
    return e

/-- Arguments in the order of the tree: positional and unpacked ones, then keywords. -/
def args : Parse (List Node) :=
  (do
    let a ← commaSeparated (positionalArgument g)
    let b := (← optional (do let _ ← op ","; keywordArguments g)).getD []
    return a ++ b.filter (!·.isKeyword) ++ b.filter (·.isKeyword)) <|>
  (do
    let b ← keywordArguments g
    return b.filter (!·.isKeyword) ++ b.filter (·.isKeyword))

/-- Reports on arguments out of order and on generators without parentheses. -/
def mistakenArguments : Parse (List Node) := diagnosing <|
  (do
    let a ← g .args
    let _ ← op ","
    let _ ← op "*"
    match a with
    | n :: _ =>
      faultAtNode n "iterable argument unpacking follows keyword argument unpacking"
    | [] => fail) <|>
  (do
    let a ← g.one .expression
    let _ ← g .forIfClauses
    let _ ← op ","
    let _ ← optional (g .args <|> do
      let _ ← g.one .expression
      g .forIfClauses)
    faultAtNode a unparenthesized) <|>
  (do
    let t ← nameToken
    let _ ← op "="
    let _ ← g.one .expression
    let _ ← g .forIfClauses
    faultAtToken t "invalid syntax. Maybe you meant '==' or ':=' instead of '='?") <|>
  committed
    (do
      let a ← g .args
      let _ ← g .forIfClauses
      return a)
    (fun a =>
      match (a.filter (!·.isKeyword)).reverse with
      | last :: _ :: _ => faultAtNode last unparenthesized
      | _ => fail)
    ((do
      let _ ← g .args
      let _ ← op ","
      let a ← g.one .expression
      let _ ← g .forIfClauses
      faultAtNode a unparenthesized) <|>
    (do
      let a ← g .args
      let _ ← op ","
      let _ ← g .args
      let unpacks := a.any fun n => n.label == .keyword none
      faultHere (if unpacks then "positional argument follows keyword argument unpacking"
        else "positional argument follows keyword argument")))
where
  /-- The report on a generator that shares its parentheses. -/
  unparenthesized : String := "Generator expression must be parenthesized"

/-- The arguments of a call, up to the closing parenthesis. -/
def arguments : Parse (List Node) :=
  (do
    let a ← g .args
    let _ ← optional (op ",")
    ahead (op ")")
    return a) <|>
  mistakenArguments g

end

end CodeAudit.Syntax
