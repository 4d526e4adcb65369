import CodeAudit.Disk.Tree
import CodeAudit.Path
import CodeAudit.Text.Quoted
import CodeAudit.Text.Utf8

/-!
# The disk

A tree of files with a current folder. Paths are followed name by name: a double dot leads back, and
everything that is passed on the way has to be a folder. A path with a null character and one that
is too long are refused before they are followed, and a name that is too long when it is not found.
-/

namespace CodeAudit

/-- All files, and the folder in which relative paths start. -/
structure Disk where
  tree : FileTree
  current : Path
  deriving Repr

namespace Disk

/-- What the disk refuses. -/
inductive Refusal where
  | missing
  | notFolder
  | isFolder
  | taken
  | denied
  | tooLong
  /-- The path has a null character. -/
  | nullByte
  deriving Repr, DecidableEq

/-- The wording of a refusal of a path. -/
def Refusal.message (path : Path) : Refusal → String
  | missing => numbered 2 "No such file or directory"
  | notFolder => numbered 20 "Not a directory"
  | isFolder => numbered 21 "Is a directory"
  | taken => numbered 17 "File exists"
  | denied => numbered 13 "Permission denied"
  | tooLong => numbered 36 "File name too long"
  | nullByte => "embedded null byte"
where
  /-- The wording with its number and the path. -/
  numbered (number : Nat) (text : String) : String :=
    s!"[Errno {number}] {text}: {Text.quotedString path.toString}"

/-- A refusal of a path. -/
structure Fault where
  refusal : Refusal
  path : Path
  deriving Repr, DecidableEq

/-- The text of a fault. -/
def Fault.message (f : Fault) : String := f.refusal.message f.path

/-! ## Following paths -/

/-- The most bytes that a name can have. -/
def maxNameBytes : Nat := 255

/-- The number of bytes that the text of a path has to stay below. -/
def maxPathBytes : Nat := 4096

/-- Why there is nothing with a name in a folder. -/
def absence (name : String) : Refusal :=
  if maxNameBytes < Text.Utf8.width name.toList then .tooLong else .missing

/-- Why a path is not followed at all. -/
def unfit? (p : Path) : Option Refusal :=
  let text := p.toString.toList
  if text.contains (Char.ofNat 0) then some .nullByte
  else if maxPathBytes ≤ Text.Utf8.width text then some .tooLong
  else none

/-- Follows names from a tree. `above` holds the way back: the folders passed, the nearest first,
each with the name of the next. -/
def follow (above : List (FileTree × String)) (t : FileTree) :
    List String → Except Refusal (List String × FileTree)
  | [] => .ok ((above.map (·.2)).reverse, t)
  | name :: rest =>
    if !t.isFolder then .error .notFolder
    else if name = ".." then
      match above with
      | [] => follow [] t rest
      | (up, _) :: above => follow above up rest
    else match t.child? name with
      | some c => follow ((t, name) :: above) c rest
      | none => .error (absence name)

/-- The place that a path leads to: its names from the top, and what is there. -/
def locate (d : Disk) (p : Path) : Except Refusal (List String × FileTree) :=
  match unfit? p with
  | some r => .error r
  | none => follow [] d.tree (d.current.join p).parts

/-- Whether a path leads to something. -/
def exists? (d : Disk) (p : Path) : Bool := (d.locate p).toOption.isSome

/-- Whether a path leads to something, where one that is too long is a fault. -/
def seek (d : Disk) (p : Path) : Except Fault Bool :=
  match d.locate p with
  | .ok _ => .ok true
  | .error .tooLong => .error ⟨.tooLong, p⟩
  | .error _ => .ok false

/-- What a path leads to. -/
def get? (d : Disk) (p : Path) : Option FileTree := (d.locate p).toOption.map (·.2)

/-- The absolute form of a path. -/
def absolute (d : Disk) (p : Path) : Path := Path.resolve d.current p

/-! ## Reading -/

/-- The file that a path leads to. -/
def fileAt (d : Disk) (p : Path) : Except Fault File :=
  match d.locate p with
  | .error r => .error ⟨r, p⟩
  | .ok (_, .folder _) => .error ⟨.isFolder, p⟩
  | .ok (_, .file f) => .ok f

/-- The bytes of a file. -/
def bytes (d : Disk) (p : Path) : Except Fault (List UInt8) := do
  return (← d.fileAt p).bytes

/-- The bytes of a file that is read as a text. -/
def textBytes (d : Disk) (p : Path) : Except Fault (List UInt8) := do
  let f ← d.fileAt p
  if f.readable then return f.bytes else .error ⟨.denied, d.absolute p⟩

/-! ## Writing -/

/-- Makes one folder. -/
def makeFolder (d : Disk) (p : Path) : Except Fault Disk :=
  match d.locate p, d.locate p.parent with
  | .ok _, _ => .error ⟨.taken, p⟩
  | .error .missing, .ok (names, .folder _) =>
    .ok { d with tree := d.tree.put (.folder []) (names ++ [p.name]) }
  | .error .missing, _ => .error ⟨.missing, p⟩
  | .error r, _ => .error ⟨r, p⟩

/-- Makes a folder and those above it, where they are missing. A folder that is there is left. -/
def makeFolders (d : Disk) (p : Path) : Nat → Except Fault Disk
  | 0 => .error ⟨.missing, p⟩
  | depth + 1 =>
    match d.makeFolder p with
    | .ok d => .ok d
    | .error ⟨.missing, _⟩ => do
      let d ← makeFolders d p.parent depth
      settle d p (d.makeFolder p)
    | made => settle d p made
where
  /-- A folder that is there already will do. -/
  settle (d : Disk) (p : Path) : Except Fault Disk → Except Fault Disk
    | .ok d => .ok d
    | .error f => if ((d.get? p).map (·.isFolder)).getD false then .ok d else .error f

/-- How many folders are missing one above the other, from a folder on that is to be made. -/
def missingFolders (d : Disk) (p : Path) : Nat → Nat
  | 0 => 0
  | depth + 1 =>
    match d.makeFolder p with
    | .error ⟨.missing, _⟩ => missingFolders d p.parent depth + 1
    | _ => 0

/-- Writes a file into a folder that is there. -/
def writeBytes (d : Disk) (p : Path) (bytes : List UInt8) : Except Fault Disk :=
  match d.locate p, d.locate p.parent with
  | .ok (_, .folder _), _ => .error ⟨.isFolder, p⟩
  | .ok (names, .file f), _ => .ok { d with tree := d.tree.put (.file { f with bytes }) names }
  | .error .missing, .ok (names, .folder _) =>
    .ok { d with tree := d.tree.put (.file { bytes }) (names ++ [p.name]) }
  | .error r, _ => .error ⟨r, p⟩

/-- **Writes a text file**, with the folders above it. -/
def writeText (d : Disk) (p : Path) (text : String) : Except Fault Disk := do
  let d ← d.makeFolders p.parent (p.parts.length + 1)
  d.writeBytes p (Text.Utf8.encode text.toList)

/-- How many folders are missing above a file that is to be written. -/
def missingAbove (d : Disk) (p : Path) : Nat := d.missingFolders p.parent (p.parts.length + 1)

end Disk

end CodeAudit
