import CodeAudit.Disk.Basic
import CodeAudit.External.Finding
import CodeAudit.Machine
import CodeAudit.Toml.Use

/-!
# Scans with the external scanner

The external scanner is another program. It is looked up, started in the folder of the scan, and
answers with a report on its output. What it answers is given; the calls that are made are kept. The
arguments are values of settings, of which only texts without null characters can be handed over.
-/

namespace CodeAudit.External

/-- A start of the external scanner. -/
structure Call where
  command : List Toml.Value
  folder : Path
  deriving Repr

/-- What the external scanner is asked. -/
structure Request where
  scanner : String := "semgrep"
  configs : List String := []
  excludes : List Toml.Value := []
  deriving Repr

/-- Why there are no findings of the external scanner. -/
inductive Fault where
  | noSuchFile (scanner : String)
  | disk (f : Disk.Fault)
  | notInstalled
  /-- An argument is no text. -/
  | notText (argument : Toml.Value)
  /-- An argument has a null character. -/
  | nullArgument
  | failed (reason : String)
  | malformed (reason : String)
  /-- The report is too deep for the stack. -/
  | tooDeep (complaint : String)
  | tooManyDigits (digits : Nat)
  /-- The report is not an object. -/
  | notObject (report : Json)
  /-- The findings are not a list. -/
  | notList (findings : Json)
  | finding (f : FindingFault)

/-- The text of a fault. -/
def Fault.message : Fault → String
  | noSuchFile scanner => s!"Semgrep executable not found: {scanner}"
  | disk f => f.message
  | notInstalled =>
    "Semgrep executable not found. Install it with `pip install semgrep` " ++
      "or point `--semgrep-bin` to the binary."
  | notText argument => s!"expected str, bytes or os.PathLike object, not {argument.shortKind}"
  | nullArgument => "embedded null byte"
  | failed reason => s!"Semgrep scan failed: {reason}"
  | malformed reason => s!"Failed to parse Semgrep JSON output: {reason}"
  | tooDeep complaint => complaint
  | tooManyDigits digits => Number.tooLongMessage digits
  | notObject report => s!"'{report.kind}' object has no attribute 'get'"
  | notList findings => s!"'{findings.kind}' object is not iterable"
  | finding f => f.message

/-- The rules that are asked for if none are chosen. -/
def defaultConfigs : List String := ["p/default"]

/-- The program to start. A name with a slash or a backslash is a path, which has to be there; any
other name is looked up. -/
def program (disk : Disk) (machine : Machine) (scanner : String) : Except Fault String :=
  if scanner.toList.any fun c => c == '/' || c == '\\' then
    let path := Path.ofString scanner
    match disk.seek path with
    | .error f => .error (.disk f)
    | .ok true => .ok path.toString
    | .ok false => .error (.noSuchFile scanner)
  else if machine.installed then .ok ("/usr/bin/" ++ scanner)
  else .error .notInstalled

/-- A program with its arguments. -/
def command (program : String) (request : Request) (target : String) : List Toml.Value :=
  let configs := if request.configs.isEmpty then defaultConfigs else request.configs
  [.str program, .str "scan", .str "--json"] ++
    configs.flatMap (fun c => [.str "--config", .str c]) ++
    request.excludes.flatMap (fun e => [.str "--exclude", e]) ++ [.str target]

/-- Why an argument cannot be handed over. -/
def argumentFault? : Toml.Value → Option Fault
  | .str s => if s.toList.contains (Char.ofNat 0) then some .nullArgument else none
  | v => some (.notText v)

/-- Why a program cannot be started: the first of its arguments that cannot be handed over. -/
def startFault? (machine : Machine) (command : List Toml.Value) : Option Fault :=
  if machine.takesAnything then none else command.findSome? argumentFault?

/-- Why a scan failed without a report: what the program complained of, or its code. -/
def failure (reply : Reply) : Fault :=
  let complaint := String.ofList (Text.trim reply.errors.toList)
  .failed (if complaint = "" then s!"Semgrep exited with code {reply.code}." else complaint)

/-- The errors that a report speaks of. -/
def reportedErrors (report : Json) : List String :=
  match report.get? "errors" with
  | some (.arr errors) =>
    errors.filterMap fun e => (memberText? e "message").or (memberText? e "type")
  | _ => []

/-- The findings in a report. What can be gone through but is no list holds none. -/
def findings (report : Json) : Except Fault (List Json) :=
  match report.get? "results" with
  | none => .ok []
  | some (.arr items) => .ok items
  | some (.str _) | some (.obj _) => .ok []
  | some other => .error (.notList other)

/-- The issues in a report. A program that ends with a failure and reports none has failed. -/
def issuesIn (folder : Path) (reply : Reply) (report : Json) : Except Fault (List Issue) :=
  match report with
  | .obj _ => do
    let issues ← (issuesOf folder (← findings report)).mapError .finding
    if !issues.isEmpty || reply.code = 0 then return issues
    else match reportedErrors report with
      | [] => .error (failure reply)
      | errors => .error (.failed ("; ".intercalate errors))
  | other => .error (.notObject other)

/-- The issues that the text of a report tells. -/
def readReport (stack : Stack) (folder : Path) (reply : Reply) (text : List Char) :
    Except Fault (List Issue) :=
  match stack.json? text, Json.read text with
  | some complaint, _ => .error (.tooDeep complaint)
  | none, .ok report => issuesIn folder reply report
  | none, .error (.fault f) => .error (.malformed f.reason)
  | none, .error (.tooManyDigits digits) => .error (.tooManyDigits digits)

/-- The issues that a program's answer tells. -/
def readReply (stack : Stack) (folder : Path) (reply : Reply) : Except Fault (List Issue) :=
  match Text.trim reply.output.toList with
  | [] => if reply.code = 0 then .ok [] else .error (failure reply)
  | text => readReport stack folder reply text

/-- The folder that a scan of a path is started in, and what it is told to look at there. -/
def place (disk : Disk) (root : Path) : Path × String :=
  if ((disk.get? root).map (·.isFolder)).getD false then (root, ".") else (root.parent, root.name)

/-- **A scan of a file or folder with the external scanner**: the calls that it makes, and the
issues. -/
def scan (disk : Disk) (machine : Machine) (root : Path) (request : Request) :
    List Call × Except Fault (List Issue) :=
  match program disk machine request.scanner with
  | .error f => ([], .error f)
  | .ok program =>
    let (folder, target) := place disk root
    let command := command program request target
    match startFault? machine command with
    | some f => ([], .error f)
    | none => ([⟨command, folder⟩], readReply machine.stack folder machine.reply)

end CodeAudit.External
