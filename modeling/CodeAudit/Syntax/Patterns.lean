import CodeAudit.Syntax.Targets

/-!
# Patterns of match statements

A pattern node holds the expressions and patterns below it; names that a pattern binds are no nodes
of their own.
-/

namespace CodeAudit.Syntax

open Parse

section

variable (g : Grammar)

/-- A pattern node. -/
def patternFrom (t : Token) (parts : List Node) : Parse Node := build t .pattern parts

/-- A number, possibly negative. -/
def signedNumber : Parse Node := do
  let t ← startToken
  match ← optional (op "-") with
  | none =>
    let n ← number
    return .mk (.constant .number) (tokenSpan n) []
  | some _ =>
    let n ← number
    build t .unaryOp [.mk (.constant .number) (tokenSpan n) []]

/-- Whether a number token is imaginary. -/
def isImaginary (t : Token) : Bool :=
  match t.lexeme.toList.getLast? with
  | some c => c == 'j' || c == 'J'
  | none => false

/-- A real number plus or minus an imaginary one. -/
def complexNumber : Parse Node := do
  let t ← startToken
  let real ← signedNumber
  let _ ← opIn ["+", "-"]
  let n ← number
  if isImaginary n then
    build t .binOp [real, .mk (.constant .number) (tokenSpan n) []]
  else faultAtToken n "imaginary number required in complex literal"

/-- A literal that a pattern compares with. -/
def literalExpr : Parse Node := firstOf [
  (do
    let n ← signedNumber
    notAhead (opIn ["+", "-"])
    return n),
  complexNumber,
  g.one .strings,
  constantWord "None" .none,
  constantWord "True" .true,
  constantWord "False" .false]

/-- The name that a pattern binds. -/
def captureTarget : Parse Token := do
  notAhead (softWord "_")
  let t ← nameToken
  notAhead (opIn [".", "(", "="])
  return t

/-- A dotted name with at least one dot. -/
def attributePath : Parse Node := do
  let t ← startToken
  let first ← name
  let _ ← op "."
  let n ← nameToken
  let start ← build t (.attribute (nameOf n)) [first]
  extendWith (fun left => do
    let _ ← op "."
    let n ← nameToken
    build t (.attribute (nameOf n)) [left]) (← remaining) start

/-- A name, dotted or not. -/
def nameOrAttribute : Parse Node := g.one .attribute <|> name

/-- A sequence of patterns with an optional comma behind. -/
def patternSequence : Parse (List Node) := do
  let items ← commaSeparated (g.one .starPattern <|> g.one .pattern)
  let _ ← optional (op ",")
  return items

/-- A sequence of patterns without brackets: it has a comma. -/
def openSequence : Parse (List Node) := do
  let first ← g.one .starPattern <|> g.one .pattern
  let _ ← op ","
  let more ← optional (patternSequence g)
  return first :: more.getD []

/-- A pattern that takes the rest of a sequence. -/
def starPattern : Parse Node := do
  let t ← op "*"
  let _ ← captureTarget <|> softWord "_"
  patternFrom t []

/-- A key of a mapping pattern with its pattern. -/
def keyPattern : Parse (Node × Node) := do
  let k ← literalExpr g <|> g.one .attribute
  let _ ← op ":"
  let p ← g.one .pattern
  return (k, p)

/-- A pattern of a mapping: its keys, then their patterns. -/
def mappingPattern : Parse Node := do
  let t ← op "\x7b"
  firstOf [
    (do
      let _ ← op "\x7d"
      patternFrom t []),
    (do
      rest
      let _ ← op "\x7d"
      patternFrom t []),
    (do
      let items ← commaSeparated (keyPattern g)
      let _ ← op ","
      rest
      let _ ← op "\x7d"
      patternFrom t (items.map (·.1) ++ items.map (·.2))),
    (do
      let items ← commaSeparated (keyPattern g)
      let _ ← optional (op ",")
      let _ ← op "\x7d"
      patternFrom t (items.map (·.1) ++ items.map (·.2)))]
where
  /-- The name that takes the rest of the mapping. -/
  rest : Parse Unit := do
    let _ ← op "**"
    let _ ← captureTarget
    let _ ← optional (op ",")

/-- A pattern for a keyword of a class. -/
def keywordPattern : Parse Node := do
  let _ ← nameToken
  let _ ← op "="
  g.one .pattern

/-- A pattern of a class with its attributes. -/
def classPattern : Parse Node := do
  let t ← startToken
  let cls ← nameOrAttribute g
  let _ ← op "("
  firstOf [
    (do
      let _ ← op ")"
      patternFrom t [cls]),
    (do
      let ps ← commaSeparated (g.one .pattern)
      let _ ← optional (op ",")
      let _ ← op ")"
      patternFrom t (cls :: ps)),
    (do
      let ks ← commaSeparated (keywordPattern g)
      let _ ← optional (op ",")
      let _ ← op ")"
      patternFrom t (cls :: ks)),
    (do
      let ps ← commaSeparated (g.one .pattern)
      let _ ← op ","
      let ks ← commaSeparated (keywordPattern g)
      let _ ← optional (op ",")
      let _ ← op ")"
      patternFrom t (cls :: ps ++ ks)),
    diagnosing (do
      let _ ← optional (do
        let _ ← commaSeparated (g.one .pattern)
        op ",")
      let _ ← commaSeparated (keywordPattern g)
      let _ ← op ","
      let ps ← commaSeparated (g.one .pattern)
      match ps with
      | p :: _ => faultAtNode p "positional patterns follow keyword patterns"
      | [] => fail)]

/-- A pattern that needs no brackets around it. -/
def closedPattern : Parse Node := firstOf [
  (do
    let t ← startToken
    let e ← literalExpr g
    patternFrom t [e]),
  (do
    let t ← captureTarget
    patternFrom t []),
  (do
    let t ← softWord "_"
    patternFrom t []),
  (do
    let t ← startToken
    let e ← g.one .attribute
    notAhead (opIn [".", "(", "="])
    patternFrom t [e]),
  (do
    let _ ← op "("
    let p ← g.one .pattern
    let _ ← op ")"
    return p),
  (do
    let t ← op "["
    let items ← optional (patternSequence g)
    let _ ← op "]"
    patternFrom t (items.getD [])),
  (do
    let t ← op "("
    let items ← optional (openSequence g)
    let _ ← op ")"
    patternFrom t (items.getD [])),
  mappingPattern g,
  classPattern g]

/-- Alternative patterns. -/
def orPattern : Parse Node := do
  let t ← startToken
  let items ← separated (g.one .closedPattern) (op "|")
  match items with
  | [p] => return p
  | _ => patternFrom t items

/-- A pattern, possibly bound to a name. -/
def pattern : Parse Node := firstOf [
  (do
    let t ← startToken
    let p ← g.one .orPattern
    let _ ← word "as"
    let _ ← captureTarget
    patternFrom t [p]),
  diagnosing (firstOf [
    (do
      let _ ← g.one .orPattern
      let _ ← word "as"
      let t ← softWord "_"
      faultAtToken t "cannot use '_' as a target"),
    (do
      let _ ← g.one .orPattern
      let _ ← word "as"
      notAhead nameToken
      let e ← g.one .expression
      faultAtNode e "invalid pattern target")]),
  g.one .orPattern]

/-- The patterns of a case: a sequence without brackets, or one pattern. -/
def patterns : Parse Node :=
  (do
    let t ← startToken
    let items ← openSequence g
    patternFrom t items) <|>
  g.one .pattern

end

end CodeAudit.Syntax
