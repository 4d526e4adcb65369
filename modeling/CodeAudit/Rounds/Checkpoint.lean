import CodeAudit.Disk.Basic
import CodeAudit.Rounds.SelfCheck

/-!
# Checkpoints

Every round adds a line to a file of checkpoints, and learns from the lines before it: its number,
the time since the last round, and how many benchmarks were below the floor each time. A file that
holds something else is left as it is.
-/

namespace CodeAudit.Rounds

/-! ## Time spent in the code -/

/-- A library and its share of the time, in percent. -/
structure HotSpot where
  percent : Float
  library : String

/-- The shares of the benchmarks. -/
structure RepoTimes where
  shares : List (String × Float) := []
  hot : List (String × List HotSpot) := []

namespace RepoTimes

/-- The share below which a benchmark is marked. -/
def floor : Float := 45.0

/-- The libraries in a list. -/
def hotSpots (j : Json) : List HotSpot :=
  (j.items?.getD []).filterMap fun item =>
    match item with
    | .arr (percent :: .str library :: _) =>
      ((real percent).toOption).map fun percent => ⟨percent, library⟩
    | _ => none

/-- The shares in a report. -/
def ofReport (report : Json) : Except Misuse RepoTimes := do
  let members ← membersFor "get" report
  let shares ← (← membersAt "items" members "repo_time_pct").mapM fun (name, j) => do
    return (name, ← real j)
  let hot := (((Json.member? members "hot_ext").bind Json.members?).getD []).map fun (name, j) =>
    (name, hotSpots j)
  return { shares, hot }

/-- The shares of the benchmarks that did not fail. -/
def measured (t : RepoTimes) : List Float := (t.shares.map (·.2)).filter fun x => 0.0 ≤ x

/-- Whether a share is below the floor. -/
def isBelow (x : Float) : Bool := 0.0 ≤ x && x < floor

/-- The number of benchmarks below the floor; none if all failed. -/
def below? (t : RepoTimes) : Option Nat :=
  if t.measured.isEmpty then none else some (t.measured.countP isBelow)

/-- The greatest number of libraries that are named. -/
def maxHotSpots : Nat := 3

/-- The libraries of a benchmark as they are named. -/
def hotText (spots : List HotSpot) : String :=
  match spots.take maxHotSpots with
  | [] => ""
  | spots =>
    let named := spots.map fun s => s!"{s.library} {Number.fixed 0 s.percent}%"
    " (hot: " ++ " ".intercalate named ++ ")"

/-- The line of a benchmark. -/
def line (t : RepoTimes) (name : String) (share : Float) : String :=
  let marked := isBelow share
  let shown := if share < 0.0 then 0.0 else share
  let hot := ((t.hot.find? (·.1 == name)).map (·.2)).getD []
  (if marked then "  * " else "    ") ++ Text.padEnd 32 name ++ " " ++
    Text.padStart 5 (Number.fixed 1 shown) ++ "%" ++
    (if share < 0.0 then "  <error>" else "") ++ (if marked then hotText hot else "")

/-- **The shares**, line by line, the lowest first. -/
def lines (t : RepoTimes) : List String :=
  if t.shares.isEmpty then []
  else
    let ordered := t.shares.mergeSort fun a b => !(b.2 < a.2)
    ["", "repo_time (target 50%; * = below 45%):"] ++ ordered.map fun (name, x) => t.line name x

end RepoTimes

/-! ## Checkpoints -/

/-- What a round records. -/
structure Round where
  coverage : RoundCoverage
  benches : Nat
  times : RepoTimes
  verdicts : Verdicts
  /-- How long the measurement took, in seconds. -/
  seconds : Float
  /-- When the round is recorded, in seconds. -/
  now : Float

/-- The lines of a text that are not blank. -/
def filledLines (text : List Char) : List (List Char) :=
  (Text.pieces '\n' text).filter fun line => !(Text.trim line).isEmpty

/-- The count in a checkpoint. -/
def countOf? (members : List (String × Json)) : Option Int :=
  match Json.member? members "n_below_repo_time" with
  | some (.int n) => some n
  | some (.bool b) => some (Number.truthValue b)
  | _ => none

/-- The members of a checkpoint; none if a line is no checkpoint. -/
def checkpointOf? (line : List Char) : Option (List (String × Json)) :=
  (Json.read line).toOption.bind Json.members?

/-- What the checkpoints tell, as far as they can be read. -/
structure History where
  /-- The counts of benchmarks below the floor, in order. -/
  counts : List Int := []
  /-- The time of the last checkpoint. -/
  lastTime : Option Json := none
  /-- Whether every line is a checkpoint. -/
  whole : Bool := true

/-- The checkpoints up to the first line that is none. -/
def checkpointsOf (lines : List (List Char)) : List (List (String × Json)) :=
  (lines.map checkpointOf?).takeWhile Option.isSome |>.filterMap id

/-- **Reads checkpoints.** The last line comes first: if it is none, nothing is told by the others.
The counts are then read up to the first line that is no checkpoint. -/
def History.read (lines : List (List Char)) : History :=
  match lines.getLast? with
  | none => {}
  | some last =>
    match checkpointOf? last with
    | none => { whole := false }
    | some members =>
      { counts := (checkpointsOf lines).filterMap countOf?
        lastTime := setMember? members "ts"
        whole := lines.all fun line => (checkpointOf? line).isSome }

/-- The time since the last checkpoint; none if its time is no number. -/
def History.elapsed? (h : History) (now : Float) : Option Float :=
  let since := fun (past : Float) => Number.roundTo 2 (now - past)
  match h.lastTime with
  | none => some 0.0
  | some (.float x) => some (since x)
  | some (.int n) => (Number.ofInt? n).map since
  | some (.bool b) => some (since (if b then 1.0 else 0.0))
  | some _ => none

/-- The number of failed benchmarks. -/
def errorCount : Json → Except Misuse Nat
  | .obj members => .ok members.length
  | .arr items => .ok items.length
  | .str s => .ok s.length
  | j => .error (.noLength j)

/-- The number of verdicts that call for a change. -/
def fixCount (verdicts : Verdicts) : Nat := verdicts.countP fun (_, _, v) => v.needsFix

/-- The checkpoint of a round. -/
def Round.record (r : Round) (number : Nat) (elapsed : Float) (errors : Nat) : Json :=
  .obj [("round", .int number), ("ts", .float r.now), ("wall_since_prev_s", .float elapsed),
    ("coverage_pct", .float r.coverage.percent), ("covered_lines", .int r.coverage.covered),
    ("num_statements", .int r.coverage.statements), ("n_bench_fns", .int r.benches),
    ("n_bench_errors", .int errors), ("cov_measure_s", .float (Number.roundTo 3 r.seconds)),
    ("repo_time_pct", .obj (r.times.shares.map fun (name, x) => (name, .float x))),
    ("n_below_repo_time", match r.times.below? with
      | some n => .int n
      | none => .null),
    ("semcheck", .obj (r.verdicts.map fun (name, _, v) => (name, .str v.name))),
    ("n_not_self_checking", .int (fixCount r.verdicts))]

/-- The number of the round after some lines. -/
def roundNumber (text : List Char) : Nat := (filledLines text).length + 1

/-- **The line that a round adds** to a file of checkpoints, if every line of the file can be
read. -/
def Round.checkpoint? (r : Round) (text : List Char) : Option String := do
  let history := History.read (filledLines text)
  if !history.whole then none
  let elapsed ← history.elapsed? r.now
  let errors ← (errorCount r.coverage.benchErrors).toOption
  return (r.record (roundNumber text) elapsed errors).compact ++ "\n"

/-! ## Rounds without progress -/

/-- The least of some counts, and how many came after it was first reached. -/
def plateau : List Int → Option (Int × Nat)
  | [] => none
  | first :: rest =>
    some (rest.foldl (fun (best, since) n => if n < best then (n, 0) else (best, since + 1))
      (first, 0))

/-- The coverage from which on rounds may end, in percent. -/
def enoughCoverage : Float := 60.0

/-- The number of rounds without progress after which rounds end. -/
def maxIdleRounds : Nat := 3

/-- **Why rounds may end**: no benchmark is below the floor, or their number has not fallen for some
rounds. -/
def Round.stop? (r : Round) (counts : List Int) : Option String :=
  match r.times.below? with
  | none => none
  | some below =>
    if !(enoughCoverage ≤ r.coverage.percent) then none
    else if below = 0 then some "0 below"
    else match plateau (counts ++ [(below : Int)]) with
      | some (best, since) =>
        if maxIdleRounds ≤ since then
          some s!"no improvement in {since} rounds; best {best} below"
        else none
      | none => none

end CodeAudit.Rounds
