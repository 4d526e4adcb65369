import CodeAudit.Syntax.Parse

/-!
# Parameter lists

The parameters of functions and of lambda expressions: positional-only ones up to a slash, plain
ones, a variadic one or a bare star, keyword-only ones, and a variadic keyword one. The two kinds
of list differ in the symbol that ends them and in whether annotations may stand in them.
-/

namespace CodeAudit.Syntax

open Parse

/-- Where a parameter list stands. -/
structure ParamStyle where
  /-- The symbol behind the list. -/
  closer : String
  annotated : Bool
  /-- What a report says about parentheses around parameters. -/
  subject : String

/-- The parameters of a function definition. -/
def ParamStyle.ofFunction : ParamStyle := ⟨")", true, "Function"⟩

/-- The parameters of a lambda expression. -/
def ParamStyle.ofLambda : ParamStyle := ⟨":", false, "Lambda expression"⟩

/-- A parameter with its annotation and default. -/
structure Param where
  name : Token
  span : Span
  annotation : Option Node
  default : Option Node

/-- A parameter in its role. -/
def Param.node (role : ParamRole) (p : Param) : Node :=
  .mk (.param role (nameOf p.name)) p.span p.annotation.toList

/-- The parts of a parameter list. -/
structure ParamList where
  positionalOnly : List Param := []
  plain : List Param := []
  variadic : Option Param := none
  keywordOnly : List Param := []
  keywordVariadic : Option Param := none

/-- The node of a parameter list: the parameters by role, with the defaults of the keyword-only
ones before the last role and all other defaults behind it. -/
def ParamList.node (l : ParamList) : Node :=
  let parts :=
    l.positionalOnly.map (·.node .positionalOnly) ++ l.plain.map (·.node .plain)
      ++ (l.variadic.map (·.node .variadic)).toList
      ++ l.keywordOnly.map (·.node .keywordOnly) ++ l.keywordOnly.filterMap (·.default)
      ++ (l.keywordVariadic.map (·.node .keywordVariadic)).toList
      ++ (l.positionalOnly ++ l.plain).filterMap (·.default)
  .mk .arguments ⟨0, 0, 0, 0, 0⟩ parts

section

variable (g : Grammar) (style : ParamStyle)

/-- A name with an optional annotation. -/
def param : Parse Param := do
  let t ← nameToken
  let annotation ← if style.annotated then
      optional (do let _ ← op ":"; g.one .expression)
    else pure none
  return ⟨t, ← spanFrom t, annotation, none⟩

/-- A variadic parameter whose annotation is unpacked. -/
def paramWithStarHint : Parse Param := do
  let t ← nameToken
  let _ ← op ":"
  let annotation ← g.one .starExpression
  return ⟨t, ← spanFrom t, some annotation, none⟩

/-- A comma, or the end of the list. -/
def paramEnd : Parse Unit := do
  match ← optional (op ",") with
  | some _ => pure ()
  | none => ahead (op style.closer)

/-- A default value. -/
def paramDefault : Parse Node :=
  (do let _ ← op "="; g.one .expression) <|>
  diagnosing do
    let t ← op "="
    ahead (opIn [")", ","])
    faultAtToken t "expected default value expression"

/-- A parameter without a default. -/
def paramNoDefault : Parse Param := do
  let p ← param g style
  paramEnd style
  return p

/-- A variadic parameter with an unpacked annotation. -/
def paramNoDefaultStar : Parse Param := do
  if style.annotated then
    let p ← paramWithStarHint g
    paramEnd style
    return p
  else fail

/-- A parameter with a default. -/
def paramWithDefault : Parse Param := do
  let p ← param g style
  let d ← paramDefault g
  paramEnd style
  return { p with default := some d }

/-- A parameter with or without a default. -/
def paramMaybeDefault : Parse Param := do
  let p ← param g style
  let d ← optional (paramDefault g)
  paramEnd style
  return { p with default := d }

/-- The slash that ends the positional-only parameters. -/
def paramSlash : Parse Unit := do
  let _ ← op "/"
  paramEnd style

/-- Positional-only parameters without defaults. -/
def slashNoDefault : Parse (List Param) := do
  let ps ← some1 (paramNoDefault g style)
  paramSlash style
  return ps

/-- Positional-only parameters of which some have defaults. -/
def slashWithDefault : Parse (List Param) := do
  let ps ← many (paramNoDefault g style)
  let ds ← some1 (paramWithDefault g style)
  paramSlash style
  return ps ++ ds

/-! ## Mistakes -/

/-- Reports on what stands behind a star. -/
def mistakenStar : Parse ParamList := diagnosing <| firstOf [
  do
    let t ← op "*"
    (do let _ ← op style.closer) <|> (do
      let _ ← op ","
      let _ ← opIn [style.closer, "**"])
    faultAtToken t "named arguments must follow bare *",
  do
    let _ ← op "*"
    let _ ← param g style
    let t ← op "="
    faultAtToken t "var-positional argument cannot have default value",
  do
    let _ ← op "*"
    (do let _ ← paramNoDefault g style) <|> (do let _ ← op ",")
    let _ ← many (paramMaybeDefault g style)
    let t ← op "*"
    (do let _ ← paramNoDefault g style) <|> (do let _ ← op ",")
    faultAtToken t "* argument may appear only once"]

/-- Reports on what stands behind a double star. -/
def mistakenDoubleStar : Parse Param := diagnosing <| firstOf [
  do
    let _ ← op "**"
    let _ ← param g style
    let t ← op "="
    faultAtToken t "var-keyword argument cannot have default value",
  do
    let _ ← op "**"
    let _ ← param g style
    let _ ← op ","
    let p ← param g style
    faultAtToken p.name "arguments cannot follow var-keyword argument",
  do
    let _ ← op "**"
    let _ ← param g style
    let _ ← op ","
    let t ← opIn ["*", "**", "/"]
    faultAtToken t "arguments cannot follow var-keyword argument"]

/-- Reports on a parameter list out of order. -/
def mistakenParameters : Parse ParamList := diagnosing <| firstOf [
  do
    let _ ← many (paramNoDefault g style)
    (do let _ ← slashWithDefault g style) <|> (do let _ ← some1 (paramWithDefault g style))
    let p ← paramNoDefault g style
    faultAtToken p.name "non-default argument follows default argument",
  do
    let _ ← many (paramNoDefault g style)
    let t ← op "("
    if style.annotated then
      let _ ← some1 (paramNoDefault g style)
    else
      let _ ← commaSeparated (param g style)
    let _ ← optional (op ",")
    let _ ← op ")"
    faultAtToken t s!"{style.subject} parameters cannot be parenthesized",
  do
    let _ ← slashNoDefault g style <|> slashWithDefault g style
    let _ ← many (paramMaybeDefault g style)
    let t ← op "/"
    faultAtToken t "/ may appear only once",
  do
    let _ ← optional (slashNoDefault g style <|> slashWithDefault g style)
    let _ ← many (paramMaybeDefault g style)
    let _ ← op "*"
    (do let _ ← op ",") <|> (do let _ ← paramNoDefault g style)
    let _ ← many (paramMaybeDefault g style)
    let t ← op "/"
    faultAtToken t "/ must be ahead of *",
  do
    let _ ← some1 (paramMaybeDefault g style)
    let _ ← op "/"
    let t ← op "*"
    faultAtToken t "expected comma between / and *"]

/-! ## The list -/

/-- The variadic keyword parameter. -/
def keywordVariadicParam : Parse Param :=
  mistakenDoubleStar g style <|> do
    let _ ← op "**"
    paramNoDefault g style

/-- Everything from a star on. -/
def starParams : Parse ParamList :=
  mistakenStar g style <|>
  (do
    let _ ← op "*"
    let p ← paramNoDefault g style
    rest (some p)) <|>
  (do
    let _ ← op "*"
    let p ← paramNoDefaultStar g style
    rest (some p)) <|>
  (do
    let _ ← op "*"
    let _ ← op ","
    let ks ← some1 (paramMaybeDefault g style)
    let kw ← optional (keywordVariadicParam g style)
    return { keywordOnly := ks, keywordVariadic := kw }) <|>
  (do return { keywordVariadic := some (← keywordVariadicParam g style) })
where
  /-- Keyword-only parameters behind a variadic one. -/
  rest (p : Option Param) : Parse ParamList := do
    let ks ← many (paramMaybeDefault g style)
    let kw ← optional (keywordVariadicParam g style)
    return { variadic := p, keywordOnly := ks, keywordVariadic := kw }

/-- A list in one of its forms. -/
def parameterList : Parse ParamList :=
  (do
    let ps ← slashNoDefault g style
    let qs ← many (paramNoDefault g style)
    let ds ← many (paramWithDefault g style)
    ending ps (qs ++ ds)) <|>
  (do
    let ps ← slashWithDefault g style
    let ds ← many (paramWithDefault g style)
    ending ps ds) <|>
  (do
    let qs ← some1 (paramNoDefault g style)
    let ds ← many (paramWithDefault g style)
    ending [] (qs ++ ds)) <|>
  (do
    let ds ← some1 (paramWithDefault g style)
    ending [] ds) <|>
  starParams g style
where
  /-- Puts the star part behind what was found. -/
  ending (ps qs : List Param) : Parse ParamList := do
    let tail := (← optional (starParams g style)).getD {}
    return { tail with positionalOnly := ps, plain := qs }

/-- **A parameter list**, possibly empty, as a node. -/
def parameters : Parse Node := do
  let l ← optional (mistakenParameters g style <|> parameterList g style)
  return (l.getD {}).node

end

end CodeAudit.Syntax
