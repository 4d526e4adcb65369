import CodeAudit.Syntax.Lexing
import CodeAudit.Syntax.Statements

/-!
# From source to syntax tree

The grammar is tied together here: each recursive form is derived with less fuel than the form that
refers to it, and what is known about a form at a place is remembered. A source that does not parse
is read a second time with the forms for mistakes; where none of them applies, the report is at the
last token that the first reading looked at.

A fault in the tokens further on takes precedence over a fault found by the grammar.
-/

namespace CodeAudit.Syntax

open Parse

/-- A form that yields one node, as a list. -/
def single (p : Parse Node) : Parse (List Node) := do return [← p]

/-- The form behind each rule. -/
def formOf (g : Grammar) (embedded : Cursor → Except Fault Node) : Rule → Parse (List Node)
  | .statements => statements g
  | .statement => statement g
  | .simpleStatements => simpleStatements g
  | .simpleStatement => single (simpleStatement g)
  | .compoundStatement => single (compoundStatement g)
  | .block => block g
  | .elifStatement => single (branch g "elif")
  | .elseBlock => elseBlock g
  | .expressions => single (tupleOf (g.one .expression))
  | .expression => single (expression g)
  | .plainExpression => single (withoutDiagnosing (plainExpression g))
  | .disjunction => single (wordChain (g.one .conjunction) "or")
  | .conjunction => single (wordChain (g.one .inversion) "and")
  | .inversion => single (inversion g)
  | .comparison => single (comparison g)
  | .bitwiseOr => single (operatorChain (g.one .bitwiseXor) ["|"])
  | .bitwiseXor => single (operatorChain (g.one .bitwiseAnd) ["^"])
  | .bitwiseAnd => single (operatorChain (g.one .shift) ["&"])
  | .shift => single (operatorChain (g.one .sum) ["<<", ">>"])
  | .sum => single (operatorChain (g.one .term) ["+", "-"])
  | .term => single (operatorChain (g.one .factor) ["*", "/", "//", "%", "@"])
  | .factor => single (factor g)
  | .power => single (power g)
  | .awaitPrimary => single (awaitPrimary g)
  | .primary => single (primary g)
  | .atom => single (atom g)
  | .lambda => single (lambda g)
  | .starExpressions => single (tupleOf (g.one .starExpression))
  | .starExpression => single (starExpression g)
  | .starNamedExpressions => starNamedExpressions g
  | .starNamedExpression => single (starNamedExpression g)
  | .namedExpression => single (namedExpression g)
  | .assignmentExpression => single (assignmentExpression g)
  | .yieldExpression => single (yieldExpression g)
  | .slices => single (slices g)
  | .slice => single (slice g)
  | .arguments => arguments g
  | .args => args g
  | .forIfClauses => forIfClauses g
  | .strings => single (strings embedded)
  | .list => single (list g)
  | .tuple => single (tuple g)
  | .generator => single (generator g)
  | .starTargets => single (starTargets g)
  | .starTarget => single (starTarget g)
  | .targetWithStarAtom => single (targetWithStarAtom g)
  | .starAtom => single (starAtom g)
  | .singleTarget => single (singleTarget g)
  | .singleSubscriptAttributeTarget => single (attributeOrSubscript g)
  | .targetPrimary => single (targetPrimary g)
  | .delTargets => delTargets g
  | .delTarget => single (delTarget g)
  | .patterns => single (patterns g)
  | .pattern => single (pattern g)
  | .orPattern => single (orPattern g)
  | .closedPattern => single (closedPattern g)
  | .starPattern => single starPattern
  | .attribute => single attributePath
  | .mistakenName => single (mistakenName g)
  | .mistakenHint => single (mistakenHint g)

/-- Looks a form up among what is known, and remembers it otherwise. -/
def remembered (r : Rule) (p : Parse (List Node)) : Parse (List Node) := fun s =>
  let key := (s.pos, r, !r.shared && s.diagnosing)
  match s.memo[key]? with
  | some none => .missing s
  | some (some (nodes, stop)) => .found nodes { s with pos := stop }
  | none =>
    match p s with
    | .found nodes s => .found nodes { s with memo := s.memo.insert key (some (nodes, s.pos)) }
    | .missing s => .missing { s with memo := s.memo.insert key none }
    | r => r

/-! ## Reports -/

/-- The line of the last token that was looked at. -/
def lastLine (s : ParseState) : Nat := ((s.source.tokens[s.fetched - 1]?).map (·.line)).getD 0

/-- Gives precedence to a fault in the tokens that were not looked at: a firm one always, and an
open bracket if it stands on a line before. -/
def overruled (s : ParseState) (f : Fault) : Fault :=
  match s.source.stop with
  | none => f
  | some stop =>
    if stop.firm then stop.fault
    else match stop.opened with
      | some b => if b.line < lastLine s then b.neverClosed else f
      | none => f

/-- The report when no form explains the fault. -/
def unexplained (last : Option Token) (s : ParseState) : Fault :=
  match last with
  | none => ⟨"invalid syntax", 0, 0⟩
  | some t =>
    if t.kind == .indent ∨ t.kind == .dedent then
      let what := if t.kind == .indent then "unexpected indent" else "unexpected unindent"
      match s.source.tokens[s.fetched - 1]? with
      | some u => ⟨what, u.line, u.column⟩
      | none => ⟨what, t.line, t.column⟩
    else overruled s ⟨"invalid syntax", t.line, (t.start.map (·.2 + 1)).getD 0⟩

/-- Reads a source, and a second time to find what is wrong with it. -/
def twoReadings (p : Parse Node) (source : Tokens) : Except Fault Node :=
  let settled := fun (f : Fault) (stopped : Bool) (s : ParseState) =>
    if stopped then f else overruled s f
  match p ⟨source, 0, 0, false, {}⟩ with
  | .found n _ => .ok n
  | .faulty f stopped s => .error (settled f stopped s)
  | .missing s =>
    let last := source.tokens[s.fetched - 1]?
    match p ⟨source, 0, s.fetched, true, {}⟩ with
    | .faulty f stopped s => .error (settled f stopped s)
    | .found _ s => .error (unexplained last s)
    | .missing s => .error (unexplained last s)

/-- The grammar with an amount of fuel. Every rule that another refers to has one unit less. -/
def grammar : Nat → Grammar
  | 0 => fun _ => fail
  | fuel + 1 => fun r =>
    let g := grammar fuel
    let embedded := fun c =>
      match twoReadings (g.one .starExpressions) (lexFrom c) with
      | .ok n => .ok n
      | .error f => .error { f with message := "f-string: " ++ f.message }
    remembered r (formOf g embedded r)

/-- Enough fuel for a source: no chain of rules between two characters is longer than this many
steps. -/
def fuelFor (source : List Char) : Nat := 64 * (source.length + 16)

/-- **The syntax tree of a source**, or its fault. -/
def parse (source : List Char) : Except Fault Node :=
  if source.contains (Char.ofNat 0) then
    .error ⟨"source code string cannot contain null bytes", 0, 0⟩
  else twoReadings (moduleBody (grammar (fuelFor source))) (lex source)

end CodeAudit.Syntax
