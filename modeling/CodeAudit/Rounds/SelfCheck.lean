import CodeAudit.Rounds.Coverage

/-!
# Benchmarks that check themselves

A benchmark is useful if what it returns tells whether it still does the same work. Facts about its
returns and its times lead to a verdict, and verdicts that call for a change are marked.
-/

namespace CodeAudit.Rounds

/-- What is thought of a benchmark. -/
inductive Verdict where
  | ok
  /-- Fine, but with too few parameters to tell whether they matter. -/
  | okUnparam
  | returnsNone
  | error
  | unstable
  | returnsInput
  | lowRepoTime
  | tooFast
  | paramInvariant
  | repoModified
  deriving Repr, DecidableEq

namespace Verdict

/-- The name of a verdict. -/
def name : Verdict → String
  | ok => "ok"
  | okUnparam => "ok-unparam"
  | returnsNone => "returns-none"
  | error => "error"
  | unstable => "unstable"
  | returnsInput => "returns-input"
  | lowRepoTime => "low-repo-time"
  | tooFast => "too-fast"
  | paramInvariant => "param-invariant"
  | repoModified => "repo-modified"

/-- Whether a verdict calls for a change. -/
def needsFix : Verdict → Bool
  | ok | okUnparam => false
  | _ => true

end Verdict

/-- The facts about a benchmark. Returns are told apart by fingerprints. -/
structure BenchFacts where
  returnKind : Option String
  /-- The fingerprints of two equal calls. -/
  repeated : List Json
  /-- The fingerprints of calls with different parameters. -/
  varied : List Json
  /-- The fingerprints of the parameters themselves. -/
  inputs : List Json
  millis : List Float
  fractions : List Float

namespace BenchFacts

/-- The values of a member's members. -/
def valuesAt (members : List (String × Json)) (name : String) : Except Misuse (List Json) := do
  return (← membersAt "values" members name).map (·.2)

/-- The items of a member that is a list. -/
def itemsAt (members : List (String × Json)) (name : String) : List Json :=
  ((Json.member? members name).bind Json.items?).getD []

/-- The facts in a report. -/
def ofMembers (members : List (String × Json)) : Except Misuse BenchFacts := do
  return {
    returnKind := (Json.member? members "ret_type").bind Json.str?
    repeated := itemsAt members "fp_stable"
    varied := ← valuesAt members "fp_by_param"
    inputs := itemsAt members "param_fps"
    millis := ← (← valuesAt members "repo_tt_ms").mapM real
    fractions := ← (← valuesAt members "repo_frac").mapM real }

/-- The least of the fractions; zero if there are none. -/
def leastFraction (f : BenchFacts) : Float :=
  match f.fractions with
  | [] => 0.0
  | x :: rest => rest.foldl (fun least y => if y < least then y else least) x

/-- The middle of the times; of two in the middle their mean. Zero if there are none. -/
def median (f : BenchFacts) : Float :=
  let sorted := f.millis.mergeSort fun a b => !(b < a)
  let half := sorted.length / 2
  if sorted.length % 2 = 1 then sorted.getD half 0.0
  else if sorted.isEmpty then 0.0
  else (sorted.getD (half - 1) 0.0 + sorted.getD half 0.0) / 2.0

/-- Whether two fingerprints are the same. -/
def sameMark (a b : Json) : Bool := a.compact == b.compact

/-- Whether equal calls gave the same. -/
def isStable (f : BenchFacts) : Bool :=
  match f.repeated with
  | [a, b] => sameMark a b
  | _ => false

/-- Whether a parameter is handed back. -/
def returnsInput (f : BenchFacts) : Bool :=
  f.repeated.head?.any fun mark => f.inputs.any (sameMark mark)

/-- **The verdict on a benchmark**: the first of these that applies. -/
def verdict (f : BenchFacts) : Verdict :=
  match f.returnKind with
  | none => .error
  | some kind =>
    if kind = "NoneType" then .returnsNone
    else if kind.toList.head? = some '<' then .error
    else if !f.isStable then .unstable
    else if f.returnsInput then .returnsInput
    else if !f.fractions.isEmpty && f.leastFraction < 0.5 then .lowRepoTime
    else if !f.millis.isEmpty && f.median < 1.0 then .tooFast
    else match f.varied with
      | [] | [_] => .okUnparam
      | first :: rest => if rest.all (sameMark first) then .paramInvariant else .ok

end BenchFacts

/-- The verdicts of a round. -/
abbrev Verdicts := List (String × BenchFacts × Verdict)

/-- The verdicts that a report leads to. What is no object is passed over; a change to the code
itself outweighs everything. -/
def verdictsOf (modified : Bool) (report : Json) : Except Misuse Verdicts := do
  let members ← membersFor "get" report
  let entries ← membersAt "items" members "semcheck"
  (entries.filterMap fun (name, j) => j.members?.map fun m => (name, m)).mapM fun (name, m) => do
    let facts ← BenchFacts.ofMembers m
    return (name, facts, if modified then .repoModified else facts.verdict)

/-- What the verdicts mean. -/
def verdictHints : List String :=
  ["returns-none: run() has no return — collect and return the call results",
   "unstable: seed RNG in setup; avoid time/uuid/id in the return",
   "returns-input: return repo output, not the parameter value",
   "low-repo-time: <50% of run() time is in repo code — move glue to setup",
   "param-invariant: return something derived from run()'s work, not setup",
   "repo-modified: revert edits to repo files (git checkout -- <path>)"]

/-- The line of a verdict. -/
def verdictLine (name : String) (f : BenchFacts) (v : Verdict) : String :=
  let kind := f.returnKind.getD "?"
  let percent := Number.fixed 0 (f.leastFraction * 100.0)
  (if v.needsFix then "  * " else "    ") ++ Text.padEnd 32 name ++ " " ++
    Text.padEnd 16 v.name ++ s!" ({kind}, repo {percent}%) " ++ Number.fixed 1 f.median ++ "ms"

/-- **The verdicts**, line by line: those that call for a change first. -/
def verdictLines (verdicts : Verdicts) : List String :=
  if verdicts.isEmpty then []
  else
    let (bad, good) := verdicts.partition fun (_, _, v) => v.needsFix
    ["", "self-check (* = fix needed):"] ++ verdictHints.map ("  " ++ ·) ++
      (bad ++ good).map fun (name, f, v) => verdictLine name f v

/-- The greatest number of changed files that are named. -/
def maxModified : Nat := 10

/-- The files of the code that were changed, line by line. -/
def modifiedLines (files : List String) : List String :=
  if files.isEmpty then []
  else
    ["", s!"** repo modified ({files.length} file(s)) — revert these; " ++
        "only microbench.py is yours to edit:"] ++
      (files.take maxModified).map ("   " ++ ·)

end CodeAudit.Rounds
