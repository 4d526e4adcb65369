import CodeAudit.Disk.Tree
import CodeAudit.Path

/-!
# Which files are scanned

A scan goes through a folder and passes over what is excluded by name, what looks generated, what is
too large, and what has neither a wanted ending nor a wanted name.
-/

namespace CodeAudit.Scan

/-- All parts of a path, with its root in front. -/
def allParts (p : Path) : List String :=
  if p.isAbsolute then Path.rootText p.root :: p.parts else p.parts

/-- Whether a part of a path is one of the excluded names. -/
def isExcluded (excludes : List String) (p : Path) : Bool :=
  excludes.any fun e => (allParts p).contains e

/-- Folders that tools fill. -/
def generatedFolders : List String :=
  ["target", ".mypy_cache", ".pytest_cache", ".tox", ".nox", ".ruff_cache", "node_modules",
   ".gradle", ".eggs"]

/-- Endings of files that tools write. -/
def generatedEndings : List (List Char) :=
  [".pyc", ".pyo", ".class", ".jar", ".war", ".whl", ".egg-info", ".min.js", ".map"].map
    String.toList

/-- Whether a path looks generated: a part of it is the name of such a folder, or its last name has
such an ending, in whatever case. -/
def isGenerated (p : Path) : Bool :=
  (allParts p).any (generatedFolders.contains ·) ||
    (allParts p).any (fun part => ".egg-info".toList.isSuffixOf part.toList) ||
    generatedEndings.any fun ending => ending.isSuffixOf (Text.lower p.name.toList)

/-- Which files a scan wants. -/
structure Choice where
  excludes : List String
  /-- Endings, with or without their dot and in any case. -/
  extensions : List String
  filenames : List String
  /-- The greatest size in kilobytes; zero and less allow every size. -/
  maxFileSizeKb : Int
  skipGenerated : Bool
  deriving Repr, DecidableEq

namespace Choice

/-- The form in which endings are compared. -/
def plainExtension (extension : String) : List Char :=
  match extension.toList with
  | '.' :: rest => Text.lower ('.' :: rest)
  | text => '.' :: Text.lower text

/-- Whether a file is small enough. -/
def allowsSize (c : Choice) (f : File) : Bool :=
  c.maxFileSizeKb ≤ 0 || (f.bytes.length : Int) ≤ c.maxFileSizeKb * 1024

/-- Whether a file has a wanted name or ending. -/
def allowsName (c : Choice) (p : Path) : Bool :=
  c.filenames.contains p.name || (c.extensions.map plainExtension).contains (Text.lower p.suffix)

/-- Whether a file is wanted for its size and its name. -/
def allowsFile (c : Choice) (p : Path) (f : File) : Bool := c.allowsSize f && c.allowsName p

/-- Whether a path is passed over as generated. -/
def skips (c : Choice) (p : Path) : Bool := c.skipGenerated && isGenerated p

/-- Whether the way to a path is open. -/
def enters (c : Choice) (p : Path) : Bool := !isExcluded c.excludes p && !c.skips p

end Choice

/-- A file to scan. -/
structure Target where
  path : Path
  /-- The path in issues. -/
  shown : String
  file : File
  deriving Repr, DecidableEq

/-- A place below a path. -/
def below (root : Path) (names : List String) : Path := ⟨root.root, root.parts ++ names⟩

/-- **The files to scan** in a file or folder at a path. A single file is not looked for among the
excluded names. -/
def targets (c : Choice) (root : Path) : FileTree → List Target
  | .file f =>
    if !c.skips root && c.allowsFile root f then [⟨root, root.name, f⟩] else []
  | .folder entries =>
    ((FileTree.folder entries).walk (fun names => c.enters (below root names)) []).filterMap
      fun (names, f) =>
        let path := below root names
        if c.enters path && c.allowsFile path f then
          some ⟨path, Path.toString ⟨.relative, names⟩, f⟩
        else none

/-- How many folders are entered one in the other to find the files to scan. -/
def Choice.depth (c : Choice) (root : Path) (tree : FileTree) : Nat :=
  tree.depth (fun names => c.enters (below root names)) []

end CodeAudit.Scan
