import CodeAudit.Checks.Classes
import CodeAudit.Checks.Markers

/-!
# Blocks in braces

Languages with braces are examined line by line. A declaration is a line that fits a pattern; if
the line has an opening brace, its block reaches to the first line at which as many braces are
closed as opened. Braces count wherever they stand.
-/

namespace CodeAudit.Checks

/-- The opening brace. -/
def openBrace : Char := Char.ofNat 0x7b

/-- The closing brace. -/
def closeBrace : Char := Char.ofNat 0x7d

/-- Whether a line has an opening brace. -/
def opens (line : List Char) : Bool := line.contains openBrace

/-- How many more braces a line opens than it closes. -/
def balance (line : List Char) : Int := line.count openBrace - line.count closeBrace

/-- How many further lines belong to a block with a number of open braces. -/
def blockRest (depth : Int) : List (List Char) → Nat
  | [] => 0
  | line :: rest => if 0 < depth then blockRest (depth + balance line) rest + 1 else 0

/-- A declaration that a scan meets: the index and the text of its line, what was found in it, and
the index of the last line of its block if it opens one. -/
structure Visit (α : Type) where
  index : Nat
  line : List Char
  found : α
  stop : Option Nat

/-- **The declarations among lines**, from an index on. What lies within the block of one is
passed over. -/
def visits {α : Type} (declaration : List Char → Option α) (index : Nat) :
    List (List Char) → List (Visit α)
  | [] => []
  | line :: rest =>
    match declaration line with
    | none => visits declaration (index + 1) rest
    | some found =>
      if opens line then
        let more := blockRest (balance line) rest
        ⟨index, line, found, some (index + more)⟩ ::
          visits declaration (index + more + 1) (rest.drop more)
      else ⟨index, line, found, none⟩ :: visits declaration (index + 1) rest
termination_by lines => lines.length
decreasing_by all_goals (simp only [List.length_drop, List.length_cons]; omega)

/-- The number of lines of the block of a declaration. -/
def Visit.length? {α : Type} (v : Visit α) : Option Nat := v.stop.map (· + 1 - v.index)

/-- The greatest depth of blocks, given the depth so far and the greatest one so far; the
outermost block does not count. -/
def depthFrom (depth : Int) (most : Nat) : List (List Char) → Nat
  | [] => most
  | line :: rest =>
    let inner := depth + line.count openBrace
    depthFrom (inner - line.count closeBrace) (max most (inner - 1).toNat) rest

/-- The greatest depth of blocks in a file. -/
def blockDepth (lines : List (List Char)) : Nat := depthFrom 0 0 lines

/-- The greatest depth of blocks that is not reported. -/
def maxBlockDepth : Nat := 4

/-- The greatest number of lines of a function. -/
def maxBlockLines : Nat := 60

/-- The greatest number of parameters of a function. -/
def maxParameters : Nat := 6

/-- A file with blocks that lie too deep. -/
def deepBlocks (r : RuleInfo) (f : SourceFile) : List Issue :=
  let depth := blockDepth f.lines
  if depth ≤ maxBlockDepth then []
  else [r.issue f.path 1 1
    s!"Maximum block nesting depth is {depth}; keep it at or below {maxBlockDepth}."]

/-- The functions of a file whose blocks are too long, where a declaration keeps its name under
1. -/
def longFunctions (r : RuleInfo) (declaration : List Char → Option Pattern.Found)
    (f : SourceFile) : List Issue :=
  (visits declaration 0 f.lines).filterMap fun v =>
    v.length?.bind fun length =>
      if length ≤ maxBlockLines then none
      else some (r.issue f.path (v.index + 1 : Nat) (v.found.column 1)
        s!"Function spans {length} lines; target at most {maxBlockLines}.")

/-- The parts of a list with commas that are not blank. -/
def commaParts (text : List Char) : List (List Char) :=
  ((Text.pieces ',' text).map Text.trim).filter (!·.isEmpty)

/-- The issue of a function with too many parameters. -/
def tooManyParameters (r : RuleInfo) (filePath : String) (line column count : Nat) : List Issue :=
  if count ≤ maxParameters then []
  else [r.issue filePath line column
    s!"Function has {count} parameters; target at most {maxParameters}."]

/-- Lines that fit a pattern and have a bad name, which the pattern keeps under a number. -/
def badNames (r : RuleInfo) (pattern : Pattern) (i : Nat) (accepts : List Char → Bool)
    (message : String) (f : SourceFile) : List Issue :=
  f.numbered.filterMap fun (line, n) =>
    (pattern.search line).bind fun m =>
      if accepts (m.group i) then none else some (r.issue f.path n (m.column i) message)

end CodeAudit.Checks
