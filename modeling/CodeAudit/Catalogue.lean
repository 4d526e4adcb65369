import CodeAudit.Issue

/-!
# The rules

Every rule that the built-in checks report, with its title and severity. A rule has the same title
and severity wherever it is reported.
-/

namespace CodeAudit.Catalogue

/-! ## Any source -/

def syntaxError : RuleInfo := ⟨"SS000", "Syntax error", .medium⟩
def dynamicExecution : RuleInfo := ⟨"SS001", "Dangerous dynamic execution", .critical⟩
def broadExcept : RuleInfo := ⟨"SS002", "Broad exception handling", .medium⟩
def hardcodedSecret : RuleInfo := ⟨"SS003", "Potential hardcoded secret", .high⟩
def workItem : RuleInfo := ⟨"SS004", "Work item marker in source", .low⟩
def mergeMarker : RuleInfo := ⟨"SS005", "Unresolved merge conflict marker", .high⟩
def shellTrue : RuleInfo := ⟨"SS006", "Shell execution with shell=True", .high⟩
def yamlLoad : RuleInfo := ⟨"SS007", "Unsafe YAML deserialization", .high⟩
def pickleLoad : RuleInfo := ⟨"SS008", "Unsafe pickle deserialization", .high⟩
def verifyFalse : RuleInfo := ⟨"SS009", "TLS certificate verification disabled", .high⟩
def dynamicEval : RuleInfo := ⟨"SS101", "Dynamic code evaluation usage", .critical⟩
def privateKey : RuleInfo := ⟨"SS102", "Private key material in source", .critical⟩
def longLine : RuleInfo := ⟨"SS103", "Excessive line length", .low⟩
def trailingBlanks : RuleInfo := ⟨"SS104", "Trailing whitespace", .low⟩
def duplicateBlock : RuleInfo := ⟨"SS105", "Duplicated code block", .medium⟩
def largeFile : RuleInfo := ⟨"SS106", "Large source file", .medium⟩
def insecureUrl : RuleInfo := ⟨"SS107", "Insecure HTTP URL usage", .medium⟩
def dockerRoot : RuleInfo := ⟨"SS108", "Dockerfile runs as root user", .high⟩
def dockerUnpinned : RuleInfo := ⟨"SS109", "Unpinned Docker base image tag", .medium⟩
def dockerPipe : RuleInfo := ⟨"SS110", "Piped remote script execution in Dockerfile", .high⟩
def podPrivileged : RuleInfo := ⟨"SS111", "Kubernetes privileged container", .critical⟩
def podEscalation : RuleInfo := ⟨"SS112", "Kubernetes privilege escalation enabled", .high⟩
def podRoot : RuleInfo := ⟨"SS113", "Kubernetes runAsNonRoot disabled", .high⟩
def podHost : RuleInfo := ⟨"SS114", "Kubernetes host namespace sharing enabled", .high⟩

/-! ## Java -/

def javaPackageName : RuleInfo := ⟨"SS201", "Java package naming convention", .low⟩
def javaTypeName : RuleInfo := ⟨"SS202", "Java type naming convention", .medium⟩
def javaFileName : RuleInfo := ⟨"SS203", "Java class/file naming mismatch", .medium⟩
def javaMethodName : RuleInfo := ⟨"SS204", "Java method naming convention", .low⟩
def javaConstantName : RuleInfo := ⟨"SS205", "Java constant naming convention", .low⟩
def javaManyParams : RuleInfo := ⟨"SS206", "Java method has too many parameters", .medium⟩
def javaLongMethod : RuleInfo := ⟨"SS207", "Java method too long", .medium⟩
def javaNesting : RuleInfo := ⟨"SS208", "Java nesting depth too high", .medium⟩
def javaManyMethods : RuleInfo := ⟨"SS209", "Class has too many methods", .medium⟩
def javaFanOut : RuleInfo := ⟨"SS219", "High import fan-out", .medium⟩
def javaCohesion : RuleInfo := ⟨"SS220", "Low class cohesion", .medium⟩
def javaCommand : RuleInfo := ⟨"SS221", "Java command execution usage", .high⟩

/-! ## Python -/

def pythonLongFunction : RuleInfo := ⟨"SS210", "Function too long", .medium⟩
def pythonManyParams : RuleInfo := ⟨"SS211", "Too many function parameters", .medium⟩
def pythonNesting : RuleInfo := ⟨"SS212", "Excessive nesting depth", .medium⟩
def pythonFunctionName : RuleInfo := ⟨"SS213", "Python function naming convention", .low⟩
def pythonClassName : RuleInfo := ⟨"SS214", "Python class naming convention", .low⟩
def pythonFanOut : RuleInfo := ⟨"SS215", "High import fan-out", .medium⟩
def pythonManyMethods : RuleInfo := ⟨"SS216", "Class has too many methods", .medium⟩
def pythonLargeModule : RuleInfo := ⟨"SS217", "Large module surface", .low⟩
def pythonCohesion : RuleInfo := ⟨"SS218", "Low class cohesion", .medium⟩

/-! ## JavaScript -/

def scriptFunctionName : RuleInfo := ⟨"SS301", "JavaScript function naming convention", .low⟩
def componentName : RuleInfo := ⟨"SS302", "React component naming convention", .low⟩
def scriptManyParams : RuleInfo :=
  ⟨"SS303", "JavaScript function has too many parameters", .medium⟩
def scriptLongFunction : RuleInfo := ⟨"SS304", "JavaScript function too long", .medium⟩
def scriptNesting : RuleInfo := ⟨"SS305", "JavaScript nesting depth too high", .medium⟩
def scriptCommand : RuleInfo := ⟨"SS306", "Node.js command execution usage", .high⟩

/-! ## Go -/

def goPackageName : RuleInfo := ⟨"SS401", "Go package naming convention", .low⟩
def goFunctionName : RuleInfo := ⟨"SS402", "Go function naming convention", .low⟩
def goManyParams : RuleInfo := ⟨"SS403", "Go function has too many parameters", .medium⟩
def goLongFunction : RuleInfo := ⟨"SS404", "Go function too long", .medium⟩
def goNesting : RuleInfo := ⟨"SS405", "Go nesting depth too high", .medium⟩
def goFanOut : RuleInfo := ⟨"SS406", "Go import fan-out too high", .medium⟩
def goTls : RuleInfo := ⟨"SS407", "Go TLS verification disabled", .high⟩
def goShell : RuleInfo := ⟨"SS408", "Go shell command execution", .high⟩

/-! ## Kotlin -/

def kotlinPackageName : RuleInfo := ⟨"SS501", "Kotlin package naming convention", .low⟩
def kotlinTypeName : RuleInfo := ⟨"SS502", "Kotlin type naming convention", .medium⟩
def kotlinFunctionName : RuleInfo := ⟨"SS503", "Kotlin function naming convention", .low⟩
def kotlinManyParams : RuleInfo := ⟨"SS504", "Kotlin function has too many parameters", .medium⟩
def kotlinLongFunction : RuleInfo := ⟨"SS505", "Kotlin function too long", .medium⟩
def kotlinNesting : RuleInfo := ⟨"SS506", "Kotlin nesting depth too high", .medium⟩
def kotlinCommand : RuleInfo := ⟨"SS507", "Kotlin command execution usage", .high⟩

/-! ## The scan itself -/

def unreadable : RuleInfo := ⟨"SS900", "File scan error", .medium⟩

/-- The rules of the checks. -/
def checks : List RuleInfo :=
  [syntaxError, dynamicExecution, broadExcept, hardcodedSecret, workItem, mergeMarker, shellTrue,
   yamlLoad, pickleLoad, verifyFalse, dynamicEval, privateKey, longLine, trailingBlanks,
   duplicateBlock, largeFile, insecureUrl, dockerRoot, dockerUnpinned, dockerPipe, podPrivileged,
   podEscalation, podRoot, podHost, javaPackageName, javaTypeName, javaFileName, javaMethodName,
   javaConstantName, javaManyParams, javaLongMethod, javaNesting, javaManyMethods, javaFanOut,
   javaCohesion, javaCommand, pythonLongFunction, pythonManyParams, pythonNesting,
   pythonFunctionName, pythonClassName, pythonFanOut, pythonManyMethods, pythonLargeModule,
   pythonCohesion, scriptFunctionName, componentName, scriptManyParams, scriptLongFunction,
   scriptNesting, scriptCommand, goPackageName, goFunctionName, goManyParams, goLongFunction,
   goNesting, goFanOut, goTls, goShell, kotlinPackageName, kotlinTypeName, kotlinFunctionName,
   kotlinManyParams, kotlinLongFunction, kotlinNesting, kotlinCommand]

/-- Every rule. -/
def all : List RuleInfo := checks ++ [unreadable]

end CodeAudit.Catalogue

/-! ## Security rules -/

namespace CodeAudit.Security

open Catalogue

/-- The built-in security rules, in the order of their names. -/
def rules : List String :=
  [dynamicExecution, hardcodedSecret, mergeMarker, shellTrue, yamlLoad, pickleLoad, verifyFalse,
   dynamicEval, privateKey, insecureUrl, dockerRoot, dockerUnpinned, dockerPipe, podPrivileged,
   podEscalation, podRoot, podHost, javaCommand, scriptCommand, goTls, goShell,
   kotlinCommand].map (·.id)

/-- The mark of the rules of the external scanner. -/
def externalMark : List Char := "SG:".toList

/-- A name in upper case. -/
def upperName (name : String) : String := String.ofList (Text.upper name.toList)

/-- **Whether a rule concerns security**, in whatever case its name is written. -/
def isSecurityRule (ruleId : String) : Bool :=
  let name := Text.upper ruleId.toList
  rules.contains (String.ofList name) || externalMark.isPrefixOf name

/-- The rules that a scan is to report: those chosen, or when it is narrowed to security, the
security rules among them. `none` stands for every rule. -/
def enabledRules (chosen : Option (List String)) (securityOnly : Bool) : Option (List String) :=
  if !securityOnly then chosen
  else match chosen with
    | none => some rules
    | some chosen => some (chosen.filter isSecurityRule).eraseDups

end CodeAudit.Security
