/-!
# File trees

A tree is a file, or a folder with named trees in it. Names in a folder are meant to be distinct; of
two entries with one name the first counts.
-/

namespace CodeAudit

/-- A file. -/
structure File where
  bytes : List UInt8
  /-- Whether its text can be read. -/
  readable : Bool := true
  deriving Repr, DecidableEq

/-- A file or a folder. -/
inductive FileTree where
  | file (f : File)
  | folder (entries : List (String × FileTree))
  deriving Repr, Inhabited

namespace FileTree

/-- The tree with a name in a folder. -/
def child? : FileTree → String → Option FileTree
  | file _, _ => none
  | folder entries, name => (entries.find? (·.1 == name)).map (·.2)

/-- The tree behind a list of names. -/
def get? (t : FileTree) : List String → Option FileTree
  | [] => some t
  | name :: rest => (t.child? name).bind fun c => get? c rest

/-- A folder with a tree under a name: at its place if the name is there, else at the end. -/
def setChild (entries : List (String × FileTree)) (name : String) (t : FileTree) :
    List (String × FileTree) :=
  if entries.any (·.1 == name) then entries.map fun e => if e.1 == name then (name, t) else e
  else entries ++ [(name, t)]

/-- Puts a tree behind a list of names. Folders on the way are made where nothing is; a file on the
way gives way to a folder. -/
def put (t : FileTree) (new : FileTree) : List String → FileTree
  | [] => new
  | name :: rest =>
    let entries := match t with
      | folder entries => entries
      | file _ => []
    folder (setChild entries name (put ((t.child? name).getD (folder [])) new rest))

/-- Takes away the tree behind a list of names. -/
def remove (t : FileTree) : List String → FileTree
  | [] => t
  | [name] =>
    match t with
    | folder entries => folder (entries.filter (·.1 != name))
    | file f => file f
  | name :: rest =>
    match t, t.child? name with
    | folder entries, some c => folder (setChild entries name (remove c rest))
    | t, _ => t

/-- Whether a tree is a folder. -/
def isFolder : FileTree → Bool
  | folder _ => true
  | file _ => false

/-- The file that a tree is. -/
def file? : FileTree → Option File
  | file f => some f
  | folder _ => none

/-! ## Walking -/

/-- Named things in the order of their names. -/
def byName {α : Type} (items : List (String × α)) : List (String × α) :=
  items.mergeSort fun a b => !(b.1 < a.1)

/-- The files of a folder, in the order of their names. -/
def filesIn (entries : List (String × FileTree)) : List (String × File) :=
  byName (entries.filterMap fun e => e.2.file?.map fun f => (e.1, f))

mutual

/-- **The files of a tree** with their names from the top, as far as folders are entered: first the
files of a folder, then its folders, both in the order of their names. `path` is the way to the
tree, with the nearest name first. -/
def walk (enter : List String → Bool) (path : List String) :
    FileTree → List (List String × File)
  | file f => [(path.reverse, f)]
  | folder entries =>
    (filesIn entries).map (fun (name, f) => ((name :: path).reverse, f)) ++
      (byName (walkFolders enter path entries)).flatMap (·.2)

/-- The files below each folder that is entered. -/
def walkFolders (enter : List String → Bool) (path : List String) :
    List (String × FileTree) → List (String × List (List String × File))
  | [] => []
  | (_, file _) :: rest => walkFolders enter path rest
  | (name, folder entries) :: rest =>
    if enter (name :: path).reverse then
      (name, walk enter (name :: path) (folder entries)) :: walkFolders enter path rest
    else walkFolders enter path rest

end

mutual

/-- How many folders a walk enters one in the other. -/
def depth (enter : List String → Bool) (path : List String) : FileTree → Nat
  | file _ => 0
  | folder entries => depthBelow enter path entries

/-- How many of them lie one in the other below some entries of a folder. -/
def depthBelow (enter : List String → Bool) (path : List String) : List (String × FileTree) → Nat
  | [] => 0
  | (_, file _) :: rest => depthBelow enter path rest
  | (name, folder entries) :: rest =>
    if enter (name :: path).reverse then
      max (depth enter (name :: path) (folder entries) + 1) (depthBelow enter path rest)
    else depthBelow enter path rest

end

end FileTree

end CodeAudit
