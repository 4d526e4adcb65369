import CodeAudit.Catalogue
import CodeAudit.Pattern.Basic

/-!
# Which issues are kept

Rules are chosen and left out by name, for the whole scan and, in a comment, for a single line. A
name stands for a rule in any case, with or without the mark of the external scanner.
-/

namespace CodeAudit.Scan

/-- Whether a rule is meant by one of some names in upper case. -/
def isMeant (names : List String) (ruleId : String) : Bool :=
  let rule := Text.upper ruleId.toList
  let mark := Security.externalMark
  names.contains (String.ofList rule) ||
    (mark.isPrefixOf rule && names.contains (String.ofList (rule.drop mark.length))) ||
    names.contains (String.ofList (mark ++ rule))

/-! ## Comments that silence a line -/

/-- The comment that silences a line, with the rules that follow it. -/
def ignorePattern : Pattern :=
  Pattern.textAnyCase "supersonar:ignore" ++
    Pattern.maybe (Pattern.blanks1 ++ Pattern.capture 1 (Pattern.plus Pattern.anyChar))

/-- The name that stands for every rule. -/
def everyRule : String := "*"

/-- The rules that a list names, in upper case; every rule if it names none. -/
def listedRules (list : List Char) : List String :=
  match ((Text.pieces ',' list).map Text.trim).filter (· ≠ []) with
  | [] => [everyRule]
  | names => names.map fun n => String.ofList (Text.upper n)

/-- The rules that a line silences. -/
def silencedRules? (line : List Char) : Option (List String) :=
  (ignorePattern.search line).map fun m =>
    match m.capture? 1 with
    | some list => listedRules list.text
    | none => [everyRule]

/-- The rules that each line of a text silences, by the line's number. -/
def silencedLines (text : List Char) : List (Nat × List String) :=
  ((Text.splitLines text).zipIdx 1).filterMap fun (line, n) =>
    (silencedRules? line).map fun rules => (n, rules)

/-- Whether an issue is silenced on its line. -/
def isSilenced (lines : List (Nat × List String)) (i : Issue) : Bool :=
  match lines.find? fun l => (l.1 : Int) == i.line.value with
  | some (_, rules) => rules.contains everyRule || isMeant rules i.ruleId
  | none => false

/-! ## Filtering -/

/-- The rules to report; `enabled` is `none` if every rule is. -/
structure Rules where
  enabled : Option (List String)
  disabled : List String
  deriving Repr, DecidableEq

/-- Whether the issues of a rule are reported. -/
def Rules.allow (r : Rules) (ruleId : String) : Bool :=
  !isMeant r.disabled ruleId && (r.enabled.map (isMeant · ruleId)).getD true

/-- **The issues that are kept**, under the path by which they are shown. -/
def kept (rules : Rules) (silenced : List (Nat × List String)) (shown : String)
    (issues : List Issue) : List Issue :=
  (issues.map fun i => { i with filePath := shown }).filter fun i =>
    rules.allow i.ruleId && !isSilenced silenced i

end CodeAudit.Scan
