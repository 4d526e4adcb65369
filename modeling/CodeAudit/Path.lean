import CodeAudit.Text.Casing
import CodeAudit.Text.Lines

/-!
# Paths and source files

A path is a root and a list of names. Empty names and single dots vanish when a path is read;
double dots stay until the path is resolved. Exactly two slashes in front are a root of their own.
-/

namespace CodeAudit

/-- What a path is relative to. -/
inductive Root where
  | relative
  | slash
  | doubleSlash
  deriving Repr, DecidableEq

/-- A path. -/
structure Path where
  root : Root
  parts : List String
  deriving Repr, DecidableEq

namespace Path

/-- The root that a text starts with. -/
def rootOf : List Char → Root
  | '/' :: '/' :: '/' :: _ => .slash
  | '/' :: '/' :: _ => .doubleSlash
  | '/' :: _ => .slash
  | _ => .relative

/-- The names in a path text. -/
def names (text : List Char) : List String :=
  ((Text.pieces '/' text).filter fun p => p ≠ [] ∧ p ≠ ['.']).map String.ofList

/-- Reads a path. -/
def ofString (s : String) : Path :=
  let text := s.toList
  ⟨rootOf text, names text⟩

/-- The text of a root. -/
def rootText : Root → String
  | .relative => ""
  | .slash => "/"
  | .doubleSlash => "//"

/-- Writes a path. -/
def toString (p : Path) : String :=
  if p.root = .relative ∧ p.parts = [] then "."
  else rootText p.root ++ "/".intercalate p.parts

instance : ToString Path := ⟨toString⟩

/-- Whether a path starts at a root. -/
def isAbsolute (p : Path) : Bool := p.root != .relative

/-- One path after another; an absolute one starts anew. -/
def join (p q : Path) : Path :=
  if q.isAbsolute then q else ⟨p.root, p.parts ++ q.parts⟩

/-- The last name. -/
def name (p : Path) : String := p.parts.getLast?.getD ""

/-- The path without its last name. -/
def parent (p : Path) : Path := ⟨p.root, p.parts.dropLast⟩

/-- Resolves double dots against the names before them. -/
def resolveParts (passed : List String) : List String → List String
  | [] => passed.reverse
  | ".." :: rest => resolveParts (passed.drop 1) rest
  | n :: rest => resolveParts (n :: passed) rest

/-- The absolute path without double dots, seen from a directory. -/
def resolve (cwd p : Path) : Path :=
  let full := cwd.join p
  ⟨.slash, resolveParts [] full.parts⟩

/-- The ending of a name from its last dot on; a name has none if the dot is its first or its last
character. -/
def suffixOf (name : List Char) : List Char :=
  let ending := (name.reverse.takeWhile (· ≠ '.')).reverse
  let before := name.length - ending.length
  if before ≤ 1 ∨ ending = [] then [] else '.' :: ending

/-- The ending of the last name. -/
def suffix (p : Path) : List Char := suffixOf p.name.toList

/-- The path of one thing seen from a directory above it. -/
def relativeTo? (p base : Path) : Option Path :=
  if p.root = base.root ∧ base.parts.isPrefixOf p.parts then
    some ⟨.relative, p.parts.drop base.parts.length⟩
  else none

end Path

/-! ## Source files -/

/-- A file to check. -/
structure SourceFile where
  path : String
  /-- The last name of the path. -/
  name : List Char
  /-- The ending of the name, in lower case. -/
  suffix : List Char
  text : List Char
  lines : List (List Char)

/-- A file with a path and a text. -/
def SourceFile.of (path : Path) (text : List Char) : SourceFile :=
  ⟨path.toString, path.name.toList, Text.lower path.suffix, text, Text.splitLines text⟩

/-- The lines of a file with their numbers, from one. -/
def SourceFile.numbered (f : SourceFile) : List (List Char × Nat) := f.lines.zipIdx 1

end CodeAudit
