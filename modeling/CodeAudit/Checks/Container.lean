import CodeAudit.Checks.Markers

/-!
# Checks of container recipes and workloads

A `Dockerfile` is checked instruction by instruction: who runs the container, how the base image is
pinned, and whether a downloaded script is piped into a shell. A Kubernetes manifest is checked for
settings that give a container the powers of its host.
-/

namespace CodeAudit.Checks.Container

open Pattern

/-! ## Container recipes -/

/-- Whether a file is a container recipe. -/
def isRecipe (f : SourceFile) : Bool :=
  Text.lower f.name == "dockerfile".toList || f.suffix == ".dockerfile".toList

/-- A base image without a tag, or with the tag `latest`. -/
def unpinnedImage : Pattern :=
  textStart ++ blanks ++ textAnyCase "FROM" ++ blanks1 ++
    plus (one fun c => !Text.isBlank c && c != ':') ++ maybe (textAnyCase ":latest") ++
    blanks ++ textEnd

/-- A download that is piped into a shell. -/
def pipedDownload : Pattern :=
  wordEdge ++ oneOfAnyCase ["curl", "wget"] ++ wordEdge ++ star anyChar ++ char '|' ++ blanks ++
    oneOfAnyCase ["sh", "bash"] ++ wordEdge

/-- The instructions of a file with their line numbers: lines that are neither empty nor comments,
without the blanks at their ends. -/
def instructions (f : SourceFile) : List (List Char × Nat) :=
  f.numbered.filterMap fun (line, n) =>
    let line := Text.trim line
    if line.isEmpty || startsWith line "#" then none else some (line, n)

/-- Whether an instruction sets the user. -/
def setsUser (instruction : List Char) : Bool := startsWith (Text.upper instruction) "USER "

/-- The user that an instruction sets. -/
def userOf (instruction : List Char) : List Char :=
  Text.lower (Text.trim (instruction.drop 5))

/-- The issues of one instruction. -/
def instructionIssues (f : SourceFile) (instruction : List Char) (n : Nat) : List Issue :=
  let report := fun (holds : Bool) (r : RuleInfo) (message : String) =>
    if holds then [r.issue f.path n 1 message] else []
  report (setsUser instruction &&
      (userOf instruction == "root".toList || userOf instruction == ['0'])) Catalogue.dockerRoot
    "Avoid running container processes as root; set a non-root USER." ++
  report (unpinnedImage.occurs instruction) Catalogue.dockerUnpinned
    "Pin Docker base images to explicit version tags instead of latest/implicit tags." ++
  report (pipedDownload.occurs instruction) Catalogue.dockerPipe
    "Avoid piping curl/wget directly to shell in Docker build steps."

/-- **The issues of a container recipe.** -/
def recipeIssues (f : SourceFile) : List Issue :=
  if !isRecipe f then []
  else
    let instructions := instructions f
    instructions.flatMap (fun (instruction, n) => instructionIssues f instruction n) ++
    if instructions.any (setsUser ·.1) then []
    else [Catalogue.dockerRoot.issue f.path 1 1
      "No USER instruction found; container likely runs as root by default."]

/-! ## Workloads -/

/-- A line that says that a manifest describes a workload. -/
def workloadKind : Pattern :=
  lineStart ++ blanks ++ textAnyCase "kind:" ++ blanks ++
    oneOfAnyCase ["Pod", "Deployment", "StatefulSet", "DaemonSet", "Job", "CronJob", "ReplicaSet"]
    ++ blanks ++ lineEnd

/-- A setting with a value, at the start of a line in lower case. -/
def setting (names : List String) (value : String) : Pattern :=
  oneOf names ++ char ':' ++ blanks ++ text value ++ wordEdge

/-- Whether a file may be a manifest. -/
def isManifest (f : SourceFile) : Bool :=
  f.suffix == ".yaml".toList || f.suffix == ".yml".toList

/-- The settings that are reported. -/
def riskySettings : List (Pattern × RuleInfo × String) :=
  [(setting ["privileged"] "true", Catalogue.podPrivileged,
     "Avoid privileged containers in Kubernetes workloads."),
   (setting ["allowprivilegeescalation"] "true", Catalogue.podEscalation,
     "Set allowPrivilegeEscalation to false for containers whenever possible."),
   (setting ["runasnonroot"] "false", Catalogue.podRoot,
     "Set runAsNonRoot to true to avoid running containers as root."),
   (setting ["hostnetwork", "hostpid", "hostipc"] "true", Catalogue.podHost,
     "Avoid hostNetwork/hostPID/hostIPC unless strictly required.")]

/-- **The issues of a workload manifest.** -/
def manifestIssues (f : SourceFile) : List Issue :=
  if !isManifest f || !workloadKind.occurs f.text then []
  else
    (instructions f).flatMap fun (line, n) =>
      let line := Text.lower line
      riskySettings.filterMap fun (pattern, r, message) =>
        if (pattern.matchStart line).isSome then some (r.issue f.path n 1 message) else none

end CodeAudit.Checks.Container
