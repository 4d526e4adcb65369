import CodeAudit.Program

/-!
# The command line

The outer layer: it reads the folders and files that a run can look at into a disk, runs the program
on it, and writes what the run leaves. Other programs are not started, so a scan with the external
scanner reports that it failed.
-/

namespace CodeAudit.Main

/-- The machine as this program sees it. -/
def machine : External.Machine :=
  { installed := false, reply := { errors := "other programs are not started", code := 126 } }

/-- The bytes of a file; one that cannot be read counts as unreadable. -/
def readFile (place : String) : IO File := do
  try
    return { bytes := (← IO.FS.readBinFile place).toList }
  catch _ => return { bytes := [], readable := false }

/-- What is at a place. A folder that cannot be read counts as empty. -/
partial def readTree (place : String) : IO FileTree := do
  let top ← IO.currentDir
  if ← (top / place).isDir then
    let entries ← try (top / place).readDir catch _ => pure #[]
    return .folder (← entries.toList.mapM fun e => do
      return (e.fileName, ← readTree e.path.toString))
  else
    return .file (← readFile place)

/-- Adds what is at a path, if something is. -/
def addPlace (disk : Disk) (path : String) : IO Disk := do
  let place := disk.absolute (Path.ofString path)
  let top ← IO.currentDir
  if ← (top / place.toString).pathExists then
    return { disk with tree := disk.tree.put (← readTree place.toString) place.parts }
  else return disk

/-- The file that a setting names. -/
def named (v : Option Toml.Value) : List String := (v.bind Program.string?).toList

/-- The files that settings name. -/
def namedBy (s : Settings) : List String :=
  named s.scan.coverageXml ++ named s.gate.baselineReport ++ [s.scan.externalScanner]

/-- The disk with everything that a run with options can look at. -/
def diskFor (o : CommandLine.ScanOptions) : IO Disk := do
  let top := (← IO.currentDir).toString
  let folder : Path := Path.ofString top
  let empty : Disk := ⟨(FileTree.folder []).put (.folder []) folder.parts, folder⟩
  let disk ← addPlace empty (o.config.getD Settings.defaultFile)
  let settings := match Settings.load machine.stack disk o.config with
    | .ok s => namedBy s
    | .error _ => []
  let chosen := [o.config, o.coverageXml, o.baselineReport, o.externalScanner, o.out]
  (o.path :: chosen.filterMap id ++ settings).foldlM addPlace disk

/-- Writes the file that a run leaves. -/
def writeFile (disk : Disk) (path : Path) (text : String) : IO Unit := do
  let place := disk.absolute path
  IO.FS.createDirAll place.parent.toString
  IO.FS.writeFile place.toString text

/-- Writes what a run leaves, and gives its exit code. -/
def finish (outcome : Program.Outcome) : IO UInt32 := do
  (← IO.getStdout).putStr outcome.output
  (← IO.getStderr).putStr outcome.errors
  match outcome.written with
  | some (path, text) => writeFile outcome.disk path text
  | none => pure ()
  match outcome.ending with
  | .exit code => return code.toUInt32
  | .crash c =>
    (← IO.getStderr).putStrLn c.message
    return 1

/-- A run with arguments. -/
def run (arguments : List String) : IO UInt32 := do
  let disk ← match CommandLine.options arguments with
    | .ok o => diskFor o
    | .error _ => pure ⟨.folder [], Path.ofString "/"⟩
  let terminal ← (← IO.getStderr).isTty
  finish (Program.run { disk, machine, terminal } arguments)

end CodeAudit.Main

/-- **The program from the command line.** -/
def main (arguments : List String) : IO UInt32 := CodeAudit.Main.run arguments
