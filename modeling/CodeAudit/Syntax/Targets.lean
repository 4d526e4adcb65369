import CodeAudit.Syntax.Displays

/-!
# Targets

What can stand on the left of an assignment, in a loop head, behind `del`, or in front of an
annotation. An attribute or subscript is a target only if nothing further is taken from it.
-/

namespace CodeAudit.Syntax

open Parse

section

variable (g : Grammar)

/-- Something further is taken from what was read. -/
def takenFurther : Parse Token := opIn ["(", "[", "."]

/-- What an attribute or subscript target is taken from: an atom with trailers, each followed by a
further one. -/
def targetPrimary : Parse Node := do
  let t ← startToken
  growing
    (do
      let a ← g.one .atom
      ahead takenFurther
      return a)
    (fun left => do
      let e ← trailerOf t left
      ahead takenFurther
      return e)
where
  /-- A trailer of any kind. -/
  trailerOf (t : Token) (left : Node) : Parse Node := firstOf [
    do
      let _ ← op "."
      let n ← nameToken
      build t (.attribute (nameOf n)) [left],
    do
      let _ ← op "["
      let s ← g.one .slices
      let _ ← op "]"
      build t .subscript [left, s],
    do
      let e ← g.one .generator
      build t .call [left, e],
    do
      let found ← callArguments g
      build t .call (left :: found)]

/-- An attribute or subscript from which nothing further is taken. -/
def attributeOrSubscript : Parse Node :=
  (do
    let t ← startToken
    let left ← g.one .targetPrimary
    let _ ← op "."
    let n ← nameToken
    notAhead takenFurther
    build t (.attribute (nameOf n)) [left]) <|>
  (do
    let t ← startToken
    let left ← g.one .targetPrimary
    let _ ← op "["
    let s ← g.one .slices
    let _ ← op "]"
    notAhead takenFurther
    build t .subscript [left, s])

/-- The targets of an assignment: one, or several as a tuple. -/
def starTargets : Parse Node :=
  (do
    let a ← g.one .starTarget
    notAhead (op ",")
    return a) <|>
  (do
    let t ← startToken
    let a ← g.one .starTarget
    let more ← many (do let _ ← op ","; g.one .starTarget)
    let _ ← optional (op ",")
    build t .tuple (a :: more))

/-- A target, possibly unpacked. -/
def starTarget : Parse Node :=
  (do
    let t ← op "*"
    notAhead (op "*")
    let e ← g.one .starTarget
    build t .starred [e]) <|>
  g.one .targetWithStarAtom

/-- A target that is not unpacked. -/
def targetWithStarAtom : Parse Node :=
  attributeOrSubscript g <|> g.one .starAtom

/-- A name, or targets in brackets. -/
def starAtom : Parse Node := firstOf [
  name,
  do
    let _ ← op "("
    let e ← g.one .targetWithStarAtom
    let _ ← op ")"
    return e,
  do
    let t ← op "("
    let items ← optional tupleItems
    let _ ← op ")"
    build t .tuple (items.getD []),
  do
    let t ← op "["
    let items ← optional (do
      let items ← commaSeparated (g.one .starTarget)
      let _ ← optional (op ",")
      return items)
    let _ ← op "]"
    build t .list (items.getD [])]
where
  /-- At least two targets, or one with a comma. -/
  tupleItems : Parse (List Node) :=
    (do
      let a ← g.one .starTarget
      let more ← some1 (do let _ ← op ","; g.one .starTarget)
      let _ ← optional (op ",")
      return a :: more) <|>
    (do
      let a ← g.one .starTarget
      let _ ← op ","
      return [a])

/-- A single target. -/
def singleTarget : Parse Node :=
  g.one .singleSubscriptAttributeTarget <|> name <|> do
    let _ ← op "("
    let e ← g.one .singleTarget
    let _ ← op ")"
    return e

/-- The targets of a deletion. -/
def delTargets : Parse (List Node) := do
  let items ← commaSeparated (g.one .delTarget)
  let _ ← optional (op ",")
  return items

/-- A target of a deletion. -/
def delTarget : Parse Node :=
  attributeOrSubscript g <|> firstOf [
    name,
    do
      let _ ← op "("
      let e ← g.one .delTarget
      let _ ← op ")"
      return e,
    do
      let t ← op "("
      let items ← optional (g .delTargets)
      let _ ← op ")"
      build t .tuple (items.getD []),
    do
      let t ← op "["
      let items ← optional (g .delTargets)
      let _ ← op "]"
      build t .list (items.getD [])]

end

end CodeAudit.Syntax
