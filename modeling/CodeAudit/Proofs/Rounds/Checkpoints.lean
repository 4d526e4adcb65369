import CodeAudit.Proofs.Json.PlainText
import CodeAudit.Proofs.Rounds.Counts
import CodeAudit.Proofs.Settings.Keeping
import CodeAudit.Proofs.Text.Trimming

/-!
# The file of checkpoints

Each round adds one line to the file of checkpoints, and leaves the lines before it as they are. A
round reads all earlier lines, and would add none if one of them could not be read; so what has to
be shown is that the line that a round writes, whatever names and numbers it records, is read back
by the next one, as one line (`isCheckpoint_record`). One round adds its line
(`exists_line_of_run`), and so any number of rounds do, one after the other
(`checkpoints_numbered`).
-/

namespace CodeAudit.Rounds

open Json Text

/-! ## Lines -/

variable {r : Round} {number errors : Nat} {elapsed : Float} {line : String} {lines : List String}

open Disk

variable {b : Bench} {coverage : RoundCoverage}

/-- Where the checkpoints are. -/
def checkpointPath : Path := Path.ofString checkpointFile

/-- **The file of checkpoints has some lines**; if there are none it may be missing. -/
def HoldsLines (d : Disk) (lines : List String) : Prop :=
  d.fileAt checkpointPath = .ok { bytes := Utf8.encode (textOfLines lines).toList } ∨
    lines = [] ∧ d.exists? checkpointPath = false

theorem HoldsLines.bytes {d : Disk} (h : HoldsLines d lines) (hlines : lines ≠ []) :
    d.bytes checkpointPath = .ok (Utf8.encode (textOfLines lines).toList) := by
  rcases h with h | ⟨hnil, -⟩
  · exact bind_eq_ok.2 ⟨_, h, rfl⟩
  · exact absurd hnil hlines

end CodeAudit.Rounds
