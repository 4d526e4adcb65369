import CodeAudit.Number.Read
import CodeAudit.Syntax.Token
import CodeAudit.Syntax.Tree
import CodeAudit.Text.Normal
import Std.Data.TreeMap

/-!
# Parsing with ordered choice

The grammar of source is read by ordered choice: of several forms the first that fits is taken, and
what one form consumed before it failed is given back. A parse ends in one of three ways: it found
something, the form is missing, or the source has a fault that no other form can mend.

Two things are observed besides the result. `fetched` counts the tokens that any form has looked
at, because a fault with no better explanation is reported at the last of them. `diagnosing` is set
on the second reading of a source that does not parse: then the forms that recognise common
mistakes take part.
-/

namespace CodeAudit.Syntax

/-- The recursive forms of the grammar. -/
inductive Rule where
  | statements | statement | simpleStatements | simpleStatement | compoundStatement | block
  | elifStatement | elseBlock
  | expressions | expression | plainExpression | disjunction | conjunction | inversion | comparison
  | bitwiseOr | bitwiseXor | bitwiseAnd | shift | sum | term | factor | power | awaitPrimary
  | primary | atom | lambda
  | starExpressions | starExpression | starNamedExpressions | starNamedExpression
  | namedExpression | assignmentExpression | yieldExpression | slices | slice
  | arguments | args | forIfClauses | strings | list | tuple | generator
  | starTargets | starTarget | targetWithStarAtom | starAtom | singleTarget
  | singleSubscriptAttributeTarget | targetPrimary | delTargets | delTarget
  | patterns | pattern | orPattern | closedPattern | starPattern | attribute
  | mistakenName | mistakenHint
  deriving Repr, DecidableEq

/-- The forms whose results are kept for both ways of reading. The others are kept apart for the
reading that diagnoses and the one that does not. -/
def Rule.shared : Rule → Bool
  | .simpleStatement | .block | .expression | .starExpression | .disjunction | .conjunction
  | .inversion | .bitwiseOr | .bitwiseXor | .bitwiseAnd | .shift | .sum | .term | .factor
  | .awaitPrimary | .primary | .strings | .arguments | .starTarget | .targetWithStarAtom
  | .targetPrimary | .delTarget | .closedPattern | .starPattern | .attribute | .mistakenName => true
  | _ => false

/-- What is known about a form at a place: that it is missing, or its nodes and where it ends. -/
abbrev Memo := Std.TreeMap (Nat × Rule × Bool) (Option (List Node × Nat))
  (compareLex (compareOn (·.1))
    (compareLex (compareOn (·.2.1.ctorIdx)) (compareOn (·.2.2))))

/-- Where a parse stands. -/
structure ParseState where
  source : Tokens
  pos : Nat
  fetched : Nat
  diagnosing : Bool
  memo : Memo

/-- How a parse ends. -/
inductive Reply (α : Type) where
  | found (value : α) (state : ParseState)
  | missing (state : ParseState)
  /-- The source is at fault; `stopped` when the reader of tokens said so. -/
  | faulty (fault : Fault) (stopped : Bool) (state : ParseState)

/-- A parser. -/
def Parse (α : Type) := ParseState → Reply α

namespace Parse

variable {α β : Type}

/-- Finds a value without looking at the source. -/
@[inline] protected def pure (a : α) : Parse α := fun s => .found a s

/-- One parser after another. -/
@[inline] protected def bind (p : Parse α) (f : α → Parse β) : Parse β := fun s =>
  match p s with
  | .found a s => f a s
  | .missing s => .missing s
  | .faulty e stopped s => .faulty e stopped s

instance : Monad Parse where
  pure := Parse.pure
  bind := Parse.bind

/-- A form that is never there. -/
def fail : Parse α := fun s => .missing s

/-- Tries a second parser where a first one is missing. -/
@[inline] def orElse (p : Parse α) (q : Unit → Parse α) : Parse α := fun s =>
  let here := s.pos
  match p s with
  | .missing s => q () { s with pos := here }
  | r => r

instance : OrElse (Parse α) := ⟨orElse⟩

/-- The first of several parsers that is there. -/
def firstOf : List (Parse α) → Parse α
  | [] => fail
  | p :: rest => p <|> firstOf rest

/-- Once `p` is found, there is no way back: where `q` is then missing, the whole form is. -/
def committed (p : Parse α) (q : α → Parse β) (other : Parse β) : Parse β := fun s =>
  let here := s.pos
  match p s with
  | .found a s => q a s
  | .missing s => other { s with pos := here }
  | .faulty e stopped s => .faulty e stopped s

/-- The token at the current place. -/
def peek : Parse Token := fun s =>
  match s.source.tokens[s.pos]? with
  | some t => .found t (if s.fetched ≤ s.pos then { s with fetched := s.pos + 1 } else s)
  | none =>
    match s.source.stop with
    | some stop => .faulty stop.fault true s
    | none => .missing s

/-- Takes a token that passes a test. -/
def token (test : Token → Bool) : Parse Token := fun s =>
  match peek s with
  | .found t s => if test t then .found t { s with pos := s.pos + 1 } else .missing s
  | r => r

/-- Takes an operator. -/
def op (symbol : String) : Parse Token := token fun t => t.kind == .op && t.lexeme == symbol

/-- Takes one of several operators. -/
def opIn (symbols : List String) : Parse Token :=
  token fun t => t.kind == .op && symbols.contains t.lexeme

/-- Takes a keyword. -/
def word (w : String) : Parse Token := token fun t => t.kind == .keyword && t.lexeme == w

/-- Takes a name that acts as a keyword in its place. -/
def softWord (w : String) : Parse Token := token fun t => t.kind == .name && t.lexeme == w

/-- Takes a token of a kind. -/
def ofKind (kind : TokenKind) : Parse Token := token (·.kind == kind)

/-- Takes the end of a line. -/
def newline : Parse Token := ofKind .newline

/-- Looks ahead: the form must be there, and nothing is taken. -/
def ahead (p : Parse α) : Parse Unit := fun s =>
  let here := s.pos
  match p s with
  | .found _ s => .found () { s with pos := here }
  | .missing s => .missing { s with pos := here }
  | .faulty e stopped s => .faulty e stopped s

/-- Looks ahead: the form must not be there. -/
def notAhead (p : Parse α) : Parse Unit := fun s =>
  let here := s.pos
  match p s with
  | .found _ s => .missing { s with pos := here }
  | .missing s => .found () { s with pos := here }
  | .faulty e stopped s => .faulty e stopped s

/-- A form that may be absent. -/
def optional (p : Parse α) : Parse (Option α) := fun s =>
  let here := s.pos
  match p s with
  | .found a s => .found (some a) s
  | .missing s => .found none { s with pos := here }
  | .faulty e stopped s => .faulty e stopped s

/-- Repeats a form as long as it is there, at most `fuel` times. -/
def repeated (p : Parse α) : Nat → Parse (List α)
  | 0 => pure []
  | fuel + 1 => do
    match ← optional p with
    | none => pure []
    | some a => return a :: (← repeated p fuel)

/-- The number of tokens not yet passed bounds every repetition. -/
def remaining : Parse Nat := fun s => .found (s.source.tokens.size - s.pos + 1) s

/-- A form any number of times. -/
def many (p : Parse α) : Parse (List α) := do repeated p (← remaining)

/-- A form at least once. -/
def some1 (p : Parse α) : Parse (List α) := do
  let first ← p
  return first :: (← many p)

/-- A form at least once, with a separator between. -/
def separated (p : Parse α) (sep : Parse β) : Parse (List α) := do
  let first ← p
  return first :: (← many (do let _ ← sep; p))

/-- Commas between. -/
def commaSeparated (p : Parse α) : Parse (List α) := separated p (op ",")

/-- Folds what follows into what was found, as often as something follows. -/
def extendWith (step : α → Parse α) : Nat → α → Parse α
  | 0, a => pure a
  | fuel + 1, a => do
    match ← optional (step a) with
    | none => pure a
    | some b => extendWith step fuel b

/-- A form that grows to the right. -/
def growing (first : Parse α) (step : α → Parse α) : Parse α := do
  let a ← first
  extendWith step (← remaining) a

/-- Takes part only when the source is read to find what is wrong with it. -/
def diagnosing (p : Parse α) : Parse α := fun s => if s.diagnosing then p s else .missing s

/-- Reads without diagnosing. -/
def withoutDiagnosing (p : Parse α) : Parse α := fun s =>
  let kept := s.diagnosing
  match p { s with diagnosing := false } with
  | .found a s => .found a { s with diagnosing := kept }
  | .missing s => .missing { s with diagnosing := kept }
  | r => r

/-! ## Faults -/

/-- Reports a fault at a line and column. -/
def faultAt (message : String) (line column : Nat) : Parse α := fun s =>
  .faulty ⟨message, line, column⟩ false s

/-- Reports a fault at the last token that was looked at. -/
def faultHere (message : String) : Parse α := fun s =>
  match s.source.tokens[s.fetched - 1]? with
  | some t => .faulty ⟨message, t.line, t.column⟩ false s
  | none => .faulty ⟨message, 0, 0⟩ false s

/-- Reports a fault at a token. The column of a token without characters is unknown. -/
def faultAtToken (t : Token) (message : String) : Parse α :=
  faultAt message t.line ((t.start.map (·.2 + 1)).getD 0)

/-- The number of digits of a whole number in decimal, and none for any other literal. Nothing but
zeros is no long number. -/
def wholeDigits? (lexeme : List Char) : Option Nat :=
  if lexeme.head? != some '0' && lexeme.all (fun c => c.isDigit || c == '_') then
    some (lexeme.countP Char.isDigit)
  else none

/-- Takes a number. A whole number in decimal is refused if it has too many digits. -/
def number : Parse Token := do
  let t ← ofKind .number
  let digits := (wholeDigits? t.lexeme.toList).getD 0
  if Number.maxDigits < digits then
    faultAt (Number.tooLongMessage digits ++ " - Consider hexadecimal for huge integer literals "
      ++ "to avoid decimal conversion limits.") t.line 0
  else return t

/-- The number of characters before a byte column on a line, told by the tokens of that line. -/
def charsBefore (line col : Nat) : Parse Nat := fun s =>
  let found := s.source.tokens.find? fun t => t.line == line && t.start.map (·.1) == some col
  .found ((found.bind fun t => t.start.map (·.2)).getD col) s

/-- Reports a fault at a node. -/
def faultAtNode (n : Node) (message : String) : Parse α := do
  let chars ← charsBefore n.span.line n.span.col
  faultAt message n.span.line (chars + 1)

/-- Takes an operator that nothing else can stand for. -/
def forced (symbol : String) : Parse Token := do
  match ← optional (op symbol) with
  | some t => return t
  | none =>
    let t ← peek
    faultAtToken t s!"expected '{symbol}'"

/-! ## Places -/

/-- Whether a token carries text of the source. -/
def isSolid (t : Token) : Bool :=
  match t.kind with
  | .newline | .indent | .dedent | .stop => false
  | _ => true

/-- The token that the form starts with; no form starts with one that carries no text. -/
def startToken : Parse Token := fun s =>
  match peek s with
  | .found t s => if isSolid t then .found t s else .missing s
  | r => r

/-- The last token with text before a position. -/
def lastSolid (tokens : Array Token) : Nat → Option Token
  | 0 => none
  | n + 1 =>
    match tokens[n]? with
    | some t => if isSolid t then some t else lastSolid tokens n
    | none => lastSolid tokens n

/-- The span from a token to the last token taken. -/
def spanFrom (t : Token) : Parse Span := fun s =>
  let (line, col) := (t.line, (t.start.map (·.1)).getD 0)
  let (endLine, endCol) := match lastSolid s.source.tokens s.pos with
    | some e => (e.endLine, e.endCol)
    | none => (line, col)
  .found ⟨line, col, endLine, endCol, t.shift⟩ s

/-- The span of a single token. -/
def tokenSpan (t : Token) : Span :=
  ⟨t.line, (t.start.map (·.1)).getD 0, t.endLine, t.endCol, t.shift⟩

/-- A node from a starting token up to the last token taken. -/
def build (t : Token) (label : Label) (parts : List Node) : Parse Node := do
  return .mk label (← spanFrom t) parts

/-- The name that a token stands for. -/
def nameOf (t : Token) : String :=
  String.ofList (Text.Normal.identifier t.lexeme.toList)

/-- Takes a name. -/
def nameToken : Parse Token := ofKind .name

/-- Takes a name as an expression. -/
def name : Parse Node := do
  let t ← nameToken
  return .mk (.name (nameOf t)) (tokenSpan t) []

end Parse

/-- How the forms of the grammar refer to each other. -/
abbrev Grammar := Rule → Parse (List Node)

/-- A form that yields one node. -/
def Grammar.one (g : Grammar) (r : Rule) : Parse Node := do
  match ← g r with
  | n :: _ => return n
  | [] => Parse.fail

end CodeAudit.Syntax
