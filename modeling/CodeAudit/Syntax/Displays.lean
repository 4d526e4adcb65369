import CodeAudit.Syntax.Arguments

/-!
# Atoms and displays

Names, literals, and what stands between brackets: groups, tuples, lists, dictionaries, sets and
the comprehensions that build them.
-/

namespace CodeAudit.Syntax

open Parse

section

variable (g : Grammar)

/-! ## Comprehensions -/

/-- The clauses of a comprehension from its `for` on. Behind `in` there is no way back. -/
def forIfClause : Parse Node :=
  committed (head (do let _ ← word "async"; let _ ← word "for")) body
    (committed (head (do let _ ← word "for")) body (do
      match ← mistakenForTarget g with
      | n :: _ => return n
      | [] => fail))
where
  /-- The target of a clause. -/
  head (intro : Parse Unit) : Parse (Token × Node) := do
    let t ← startToken
    intro
    let target ← g.one .starTargets
    let _ ← word "in"
    return (t, target)
  /-- The source of a clause and its conditions. -/
  body : Token × Node → Parse Node := fun (t, target) => do
    let source ← g.one .disjunction
    let tests ← many (do let _ ← word "if"; g.one .disjunction)
    build t .comprehension (target :: source :: tests)

/-- All clauses of a comprehension. -/
def forIfClauses : Parse (List Node) := some1 (forIfClause g)

/-- Reports on comprehensions that unpack, or whose target lacks its parentheses. -/
def mistakenComprehension : Parse Node := diagnosing <| firstOf [
  do
    let _ ← opIn ["[", "(", "\x7b"]
    let a ← starredExpression g
    let _ ← g .forIfClauses
    faultAtNode a "iterable unpacking cannot be used in comprehension",
  do
    let _ ← opIn ["[", "\x7b"]
    let a ← g.one .starNamedExpression
    let _ ← op ","
    let _ ← g .starNamedExpressions
    let _ ← g .forIfClauses
    faultAtNode a "did you forget parentheses around the comprehension target?",
  do
    let _ ← opIn ["[", "\x7b"]
    let a ← g.one .starNamedExpression
    let _ ← op ","
    let _ ← g .forIfClauses
    faultAtNode a "did you forget parentheses around the comprehension target?"]

/-- An item with its clauses, between brackets. -/
def comprehensionIn (opening closing : String) (label : Label) (item : Parse (List Node)) :
    Parse Node := do
  let t ← op opening
  let e ← item
  let clauses ← g .forIfClauses
  let _ ← op closing
  build t label (e ++ clauses)

/-- A generator expression. -/
def generator : Parse Node :=
  comprehensionIn g "(" ")" .generator (do
    return [← g.one .assignmentExpression <|> unnamedExpression g]) <|>
  mistakenComprehension g

/-- A list comprehension. -/
def listComprehension : Parse Node :=
  comprehensionIn g "[" "]" .listComp (do return [← g.one .namedExpression]) <|>
  mistakenComprehension g

/-- A set comprehension. -/
def setComprehension : Parse Node :=
  comprehensionIn g "\x7b" "\x7d" .setComp (do return [← g.one .namedExpression]) <|>
  mistakenComprehension g

/-! ## Displays -/

/-- A tuple in parentheses. -/
def tuple : Parse Node := do
  let t ← op "("
  let items ← optional (do
    let first ← g.one .starNamedExpression
    let _ ← op ","
    let more ← optional (g .starNamedExpressions)
    return first :: more.getD [])
  let _ ← op ")"
  build t .tuple (items.getD [])

/-- An expression in parentheses. -/
def group : Parse Node :=
  (do
    let _ ← op "("
    let e ← g.one .yieldExpression <|> g.one .namedExpression
    let _ ← op ")"
    return e) <|>
  diagnosing (firstOf [
    do
      let _ ← op "("
      let a ← starredExpression g
      let _ ← op ")"
      faultAtNode a "cannot use starred expression here",
    do
      let _ ← op "("
      let t ← op "**"
      let _ ← g.one .expression
      let _ ← op ")"
      faultAtToken t "cannot use double starred expression here"])

/-- A list. -/
def list : Parse Node := do
  let t ← op "["
  let items ← optional (g .starNamedExpressions)
  let _ ← op "]"
  build t .list (items.getD [])

/-- A set. -/
def set : Parse Node := do
  let t ← op "\x7b"
  let items ← g .starNamedExpressions
  let _ ← op "\x7d"
  build t .set items

/-- A key with its value. -/
def keyValue : Parse (Option Node × Node) := do
  let k ← g.one .expression
  let _ ← op ":"
  let v ← g.one .expression
  return (some k, v)

/-- A key with its value, or an unpacked mapping. -/
def dictItem : Parse (Option Node × Node) :=
  (do
    let _ ← op "**"
    let e ← g.one .bitwiseOr
    return (none, e)) <|>
  keyValue g

/-- Reports on a value that is unpacked or absent. -/
def mistakenValue {α : Type} : Parse α := firstOf [
  do
    let _ ← g.one .expression
    let _ ← op ":"
    let t ← op "*"
    let _ ← g.one .bitwiseOr
    faultAtToken t "cannot use a starred expression in a dictionary value",
  do
    let _ ← g.one .expression
    let t ← op ":"
    ahead (opIn ["\x7d", ","])
    faultAtToken t "expression expected after dictionary key and ':'"]

/-- Reports on the items of a dictionary. -/
def mistakenItems {α : Type} : Parse α := diagnosing <|
  (do
    let _ ← commaSeparated (dictItem g)
    let _ ← op ","
    (do
      let a ← g.one .expression
      notAhead (op ":")
      faultAt "':' expected after dictionary key" a.span.line a.span.endCol) <|>
    mistakenValue g) <|>
  mistakenValue g

/-- A dictionary: its keys, then its values. -/
def dict : Parse Node :=
  (do
    let t ← op "\x7b"
    let items ← optional (do
      let items ← commaSeparated (dictItem g)
      let _ ← optional (op ",")
      return items)
    let _ ← op "\x7d"
    let items := items.getD []
    build t .dict (items.filterMap (·.1) ++ items.map (·.2))) <|>
  (do
    let _ ← op "\x7b"
    mistakenItems g)

/-- A dictionary comprehension. -/
def dictComprehension : Parse Node :=
  comprehensionIn g "\x7b" "\x7d" .dictComp (do
    let (k, v) ← keyValue g
    return k.toList ++ [v]) <|>
  diagnosing (do
    let _ ← op "\x7b"
    let t ← op "**"
    let _ ← g.one .bitwiseOr
    let _ ← g .forIfClauses
    let _ ← op "\x7d"
    faultAtToken t "dict unpacking cannot be used in dict comprehension")

/-! ## Atoms -/

/-- A constant that is a keyword. -/
def constantWord (w : String) (value : Literal) : Parse Node := do
  let t ← word w
  return .mk (.constant value) (tokenSpan t) []

/-- An atom. -/
def atom : Parse Node := firstOf [
  name,
  constantWord "True" .true,
  constantWord "False" .false,
  constantWord "None" .none,
  (do ahead (ofKind .text); g.one .strings),
  (do let t ← number; return .mk (.constant .number) (tokenSpan t) []),
  (do ahead (op "("); g.one .tuple <|> group g <|> g.one .generator),
  (do ahead (op "["); g.one .list <|> listComprehension g),
  (do ahead (op "\x7b"); dict g <|> set g <|> dictComprehension g <|> setComprehension g),
  (do let t ← op "..."; return .mk (.constant .ellipsis) (tokenSpan t) [])]

end

/-! ## Texts -/

/-- The nodes of the expressions in a formatted text, read by `embedded`. -/
def fieldNodes (embedded : Cursor → Except Fault Node) (span : Span) :
    List Field → Except Fault (List Node)
  | [] => .ok []
  | .mk expr spec :: rest => do
    let value ← embedded expr
    let format ← match spec with
      | none => pure []
      | some fields => do pure [Node.mk .joinedText span (← fieldNodes embedded span fields)]
    return .mk .interpolation span (value :: format) :: (← fieldNodes embedded span rest)

/-- A fault of a text: one with a place of its own, or one that is reported where the reader is. -/
inductive TextFault where
  | placed (f : Fault)
  | here (message : String)

/-- What is wrong with the characters of a text token that is not formatted. -/
def bodyFault? (t : Token) (m : TextMark) : Option TextFault :=
  let body := m.body t.lexeme.toList
  if m.bytes && body.any (0x80 ≤ ·.toNat) then
    some (.placed ⟨"bytes can only contain ASCII literal characters", t.line, t.column⟩)
  else if m.raw || m.formatted then none
  else ((if m.bytes then Escape.bytesFault? else Escape.textFault?) body).map .here

/-- The nodes of the expressions in one text token; `bytes` tells whether the tokens before it are
bytes. -/
def textNodes (embedded : Cursor → Except Fault Node) (span : Span) (bytes : Bool) (t : Token) :
    Except TextFault (List Node) := do
  let mark := TextMark.of t.lexeme.toList
  if let some fault := bodyFault? t mark then .error fault
  if mark.bytes != bytes then .error (.here "cannot mix bytes and nonbytes literals")
  if !mark.formatted then return []
  let (fields, fault) := t.fields mark
  let nodes ← (fieldNodes embedded span fields).mapError .placed
  match fault with
  | some message => .error (.here message)
  | none => return nodes

/-- Text tokens side by side, as one literal or one formatted text. -/
def strings (embedded : Cursor → Except Fault Node) : Parse Node := do
  let t ← startToken
  let tokens ← some1 (ofKind .text)
  let span ← spanFrom t
  let marks := tokens.map fun t => TextMark.of t.lexeme.toList
  let bytes := (TextMark.of t.lexeme.toList).bytes
  match tokens.mapM (textNodes embedded span bytes) with
  | .error (.placed f) => faultAt f.message f.line f.column
  | .error (.here message) => faultHere message
  | .ok nodes =>
    if marks.any (·.formatted) then return .mk .joinedText span nodes.flatten
    else if bytes then return .mk (.constant .bytes) span []
    else return .mk (.constant .text) span []

end CodeAudit.Syntax
