/-!
# Character tables

Properties of characters come as tables of code points, packed as plain text. The digits of a
packed number are `0-9A-Za-z` in base 31, where a digit from 31 on says that another follows. A
range table goes through the points in order: each run is a gap and the number of further points.
A mapping table is in groups, which a dot divides: a gap, a shape, and how the targets differ from
those in the same place of the last cell. A group of shape 0 is a run of which each point is mapped
by the same distance. One of shape 1 holds every second point of such a run, and one of shape
`k + 1` is about points in a row with `k` targets each.

This module holds the readers of that text and the two look-ups. Every property that has a table
answers for ASCII without consulting it, so the tables matter from U+0080 on.
-/

namespace CodeAudit.Text

/-- The pieces of a text between the occurrences of one separator. -/
def pieces (sep : Char) : List Char → List (List Char)
  | [] => [[]]
  | c :: rest =>
    if c = sep then [] :: pieces sep rest
    else match pieces sep rest with
      | [] => [[c]]
      | first :: others => (c :: first) :: others

namespace Table

/-- The value of a digit. -/
def digitOf (c : Char) : Nat :=
  if c.isDigit then c.toNat - 48 else if c.isUpper then c.toNat - 55 else c.toNat - 61

/-- The numbers of a packed text, with the digits of the first that are held. What is between the
digits is left out. -/
def numbersFrom (held : Nat) : List Char → List Nat
  | [] => []
  | c :: rest =>
    if !c.isAlphanum then numbersFrom held rest
    else if digitOf c < 31 then (31 * held + digitOf c) :: numbersFrom 0 rest
    else numbersFrom (31 * held + (digitOf c - 31)) rest

/-- A run of code points that advances by `step`. -/
structure Run where
  lo : Nat
  hi : Nat
  step : Nat
  deriving Repr, DecidableEq

/-- Whether a code point belongs to a run. -/
def Run.contains (r : Run) (n : Nat) : Bool :=
  r.lo ≤ n && n ≤ r.hi && (n - r.lo) % r.step == 0

/-- The runs of a range table from a point on. -/
def runsFrom (start : Nat) : List Nat → List Run
  | gap :: more :: rest =>
    ⟨start + gap, start + gap + more, 1⟩ :: runsFrom (start + gap + more + 1) rest
  | _ => []

/-- Reads a range table. -/
def readRuns (text : String) : Array Run := (runsFrom 0 (numbersFrom 0 text.toList)).toArray

/-- Whether a code point is in a range table. -/
def contains (table : Array Run) (n : Nat) : Bool :=
  table.any (·.contains n)

/-- One entry of a mapping table: the sources and what the first of them becomes. -/
structure Entry where
  sources : Run
  targets : List Nat
  deriving Repr, DecidableEq

/-- What an entry makes of one of its sources: a single target moves along with the source. -/
def Entry.apply (e : Entry) (n : Nat) : List Nat :=
  match e.targets with
  | [target] => [target + (n - e.sources.lo)]
  | targets => targets

/-- The number at a distance: an even one leads up and an odd one down. -/
def moved (n code : Nat) : Nat := if code % 2 = 0 then n + code / 2 else n - (code + 1) / 2

/-- The cells of so many targets each. `cell` is what there is of the first. -/
def cellsFrom (width : Nat) (last cell : List Nat) : List Nat → List (List Nat)
  | [] => []
  | code :: rest =>
    let cell := cell ++ [moved (last.getD cell.length 0) code]
    if cell.length < width then cellsFrom width last cell rest
    else cell :: cellsFrom width cell [] rest

/-- The entries of a group behind an entry. -/
def groupAfter (last : Entry) : List Nat → List Entry
  | gap :: shape :: codes =>
    let lo := last.sources.hi + 1 + gap
    if shape < 2 then
      let sources := ⟨lo, lo + codes.headD 0 * (shape + 1), shape + 1⟩
      (cellsFrom 1 last.targets [] codes.tail).map (⟨sources, ·⟩)
    else
      (cellsFrom (shape - 1) last.targets [] codes).mapIdx fun i targets =>
        ⟨⟨lo + i, lo + i, 1⟩, targets⟩
  | _ => []

/-- The entries of groups behind an entry. -/
def entriesAfter (last : Entry) : List (List Nat) → List Entry
  | [] => []
  | group :: rest =>
    let entries := groupAfter last group
    entries ++ entriesAfter (entries.getLastD last) rest

/-- The entries in the text of a mapping table. -/
def entriesIn (text : List Char) : List Entry :=
  entriesAfter ⟨⟨0, 0, 1⟩, []⟩ ((pieces '.' text).map (numbersFrom 0))

/-- Reads a mapping table. -/
def readEntries (text : String) : Array Entry := (entriesIn text.toList).toArray

/-- What a mapping table makes of a code point, if it lists it. -/
def lookup? (table : Array Entry) (n : Nat) : Option (List Nat) :=
  (table.find? (·.sources.contains n)).map (·.apply n)

end Table

end CodeAudit.Text
