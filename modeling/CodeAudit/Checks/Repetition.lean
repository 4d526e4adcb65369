import CodeAudit.Checks.Markers

/-!
# Repeated blocks

Four lines in a row that stand in a file more than once. Lines are compared by their words, blocks
with an empty line or fewer than eighty characters do not count, and at most twenty repetitions are
reported, block by block in the order of first appearance.
-/

namespace CodeAudit.Checks.Repetition

/-- The number of lines in a block. -/
def blockLines : Nat := 4

/-- The least number of characters in a block. -/
def leastLength : Nat := 80

/-- The greatest number of repetitions that are reported. -/
def maxReported : Nat := 20

/-- A line as it is compared: its words with single spaces between. -/
def normalLine (line : List Char) : List Char := [' '].intercalate (Text.words line)

/-- Whether a block counts. -/
def counts (block : List (List Char)) : Bool :=
  block.all (!·.isEmpty) && leastLength ≤ block.flatten.length

/-- The text by which a block is compared: its lines with line feeds between. -/
def joined (block : List (List Char)) : List Char := ['\n'].intercalate block

/-- The texts of the blocks that count with the line number at which each starts, from a number
on. -/
def blocksFrom (n : Nat) : List (List Char) → List (List Char × Nat)
  | [] => []
  | line :: rest =>
    let block := (line :: rest).take blockLines
    if block.length = blockLines ∧ counts block then (joined block, n) :: blocksFrom (n + 1) rest
    else blocksFrom (n + 1) rest

/-- The blocks of a file that count. -/
def blocks (lines : List (List Char)) : List (List Char × Nat) :=
  blocksFrom 1 (lines.map normalLine)

/-- The pairs of a list whose first part is another thing. -/
def others {α : Type} [BEq α] (a : α) (list : List (α × Nat)) : List (α × Nat) :=
  list.filter (·.1 != a)

/-- The numbers that stand with equal things, in the order of first appearance. -/
def grouped {α : Type} [BEq α] : List (α × Nat) → List (Nat × List Nat)
  | [] => []
  | (a, n) :: rest => (n, (rest.filter (·.1 == a)).map (·.2)) :: grouped (others a rest)
termination_by list => list.length
decreasing_by exact Nat.lt_succ_of_le (List.length_filter_le _ _)

/-- The repetitions in a file: the line where a block is repeated and the line where it is first
seen. -/
def repetitions (lines : List (List Char)) : List (Nat × Nat) :=
  if lines.length < 2 * blockLines then []
  else ((grouped (blocks lines)).flatMap fun (first, later) => later.map (·, first)).take
    maxReported

/-- **The repeated blocks of a file.** -/
def issues (f : SourceFile) : List Issue :=
  (repetitions f.lines).map fun (line, first) =>
    Catalogue.duplicateBlock.issue f.path line 1
      s!"Repeated {blockLines}-line block detected (first seen near line {first})."

end CodeAudit.Checks.Repetition
