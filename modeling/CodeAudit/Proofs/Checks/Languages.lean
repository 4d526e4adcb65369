import CodeAudit.Proofs.Checks.Findings

/-!
# What the checks of a language find

The checks of each language, and so all checks, look at a file's path only to name it
(`exists_findings`). They are given by their parts (`Analyser.parts`), each with its rules, so that
the checks which leave out a rule can be told from the one that has it.
-/

namespace CodeAudit.Checks

variable {r : RuleInfo} {rules : List RuleInfo} (f : SourceFile)

/-! ## Languages with braces -/

theorem placed_deepBlocks (hr : r ∈ rules) :
    Placed rules fun path => deepBlocks r (f.moved path) := by
  simp only [deepBlocks, SourceFile.lines_moved, SourceFile.path_moved]
  exact .cond .nil (.single hr _ _ _)

theorem placed_longFunctions (hr : r ∈ rules)
    (declaration : List Char → Option Pattern.Found) :
    Placed rules fun path => longFunctions r declaration (f.moved path) := by
  simp only [longFunctions, SourceFile.lines_moved, SourceFile.path_moved]
  exact .filterMap _ fun v _ => .bind _ fun length => .cond .none (.some hr _ _ _)

theorem placed_tooManyParameters (hr : r ∈ rules) (line column count : Nat) :
    Placed rules fun path => tooManyParameters r path line column count := by
  simp only [tooManyParameters]
  exact .cond .nil (.single hr _ _ _)

theorem placed_badNames (hr : r ∈ rules) (pattern : Pattern) (i : Nat)
    (accepts : List Char → Bool) (message : String) :
    Placed rules fun path => badNames r pattern i accepts message (f.moved path) := by
  simp only [badNames, SourceFile.numbered_moved, SourceFile.path_moved]
  exact .filterMap _ fun ⟨line, n⟩ _ => .bind _ fun m => .cond .none (.some hr _ _ _)

/-! ## Go -/

theorem placed_goFunctions (hr : [Catalogue.goFunctionName, Catalogue.goManyParams] ⊆ rules) :
    Placed rules fun path => Go.functionIssues (f.moved path) := by
  simp only [Go.functionIssues, SourceFile.numbered_moved, SourceFile.path_moved]
  refine .flatMap _ fun ⟨line, n⟩ _ => ?_
  cases Go.functionHead.search line with
  | none => exact .nil
  | some m =>
    exact .append (.cond (.single (hr (by decide)) _ _ _) .nil)
      (placed_tooManyParameters (hr (by decide)) _ _ _)

theorem placed_goImports (hr : Catalogue.goFanOut ∈ rules) :
    Placed rules fun path => Go.importIssues (f.moved path) := by
  simp only [Go.importIssues, SourceFile.lines_moved, SourceFile.path_moved]
  exact .cond .nil (.single hr _ _ _)

/-! ## Kotlin -/

theorem placed_kotlinFunctions
    (hr : [Catalogue.kotlinFunctionName, Catalogue.kotlinManyParams] ⊆ rules) :
    Placed rules fun path => Kotlin.functionIssues (f.moved path) := by
  simp only [Kotlin.functionIssues, SourceFile.numbered_moved, SourceFile.path_moved]
  refine .flatMap _ fun ⟨line, n⟩ _ => ?_
  cases Kotlin.functionHead.search line with
  | none => exact .nil
  | some m =>
    exact .append (.cond .nil (.single (hr (by decide)) _ _ _))
      (placed_tooManyParameters (hr (by decide)) _ _ _)

/-! ## Java -/

theorem stem_moved (path : String) : Java.stem (f.moved path) = Java.stem f := rfl

theorem placed_javaFileNames (hr : Catalogue.javaFileName ∈ rules) :
    Placed rules fun path => Java.fileNames (f.moved path) := by
  simp only [Java.fileNames, SourceFile.numbered_moved, SourceFile.path_moved, stem_moved]
  split
  · exact .nil
  · exact .cond .nil (.single hr _ _ _)

theorem placed_javaMethod (hr : [Catalogue.javaManyParams, Catalogue.javaLongMethod] ⊆ rules)
    (v : Visit Pattern.Found) : Placed rules fun path => Java.methodIssues (f.moved path) v := by
  simp only [Java.methodIssues, SourceFile.path_moved, stem_moved]
  refine .append (.cond .nil (.single (hr (by decide)) _ _ _)) ?_
  cases v.length? with
  | none => exact .nil
  | some length => exact .cond .nil (.single (hr (by decide)) _ _ _)

theorem placed_javaMethods (hr : [Catalogue.javaManyParams, Catalogue.javaLongMethod] ⊆ rules) :
    Placed rules fun path =>
      (visits Java.methodHead.search 0 f.lines).flatMap (Java.methodIssues (f.moved path)) :=
  .flatMap _ fun v _ => placed_javaMethod f hr v

theorem placed_javaClass (hr : [Catalogue.javaManyMethods, Catalogue.javaCohesion] ⊆ rules)
    (c : Java.ClassRange) : Placed rules fun path => Java.classIssues (f.moved path) c := by
  simp only [Java.classIssues, SourceFile.lines_moved, SourceFile.path_moved]
  refine .append (.cond .nil (.single (hr (by decide)) _ _ _)) ?_
  split
  · exact .cond (.single (hr (by decide)) _ _ _) .nil
  · exact .nil

theorem placed_javaClasses (hr : [Catalogue.javaManyMethods, Catalogue.javaCohesion] ⊆ rules) :
    Placed rules fun path =>
      (Java.classRanges f.lines).flatMap (Java.classIssues (f.moved path)) :=
  .flatMap _ fun c _ => placed_javaClass f hr c

theorem placed_javaImports (hr : Catalogue.javaFanOut ∈ rules) :
    Placed rules fun path => Java.importIssues (f.moved path) := by
  simp only [Java.importIssues, SourceFile.lines_moved, SourceFile.path_moved]
  exact .cond .nil (.single hr _ _ _)

/-! ## JavaScript -/

/-- The rules for declarations in a script. -/
def JavaScript.declarationRules : List RuleInfo :=
  [Catalogue.componentName, Catalogue.scriptFunctionName, Catalogue.scriptManyParams]

theorem placed_badComponent (hr : Catalogue.componentName ∈ rules) (line : Nat)
    (m : Pattern.Found) :
    Placed rules fun path => JavaScript.badComponent (f.moved path) line m := by
  simp only [JavaScript.badComponent, SourceFile.path_moved]
  exact .cond .nil (.single hr _ _ _)

section

variable (hr : JavaScript.declarationRules ⊆ rules)
include hr

theorem placed_scriptDeclaration (text : List Char) (following : List (List Char)) (line : Nat)
    (m : Pattern.Found) :
    Placed rules fun path => JavaScript.declarationIssues (f.moved path) text following line m := by
  simp only [JavaScript.declarationIssues, SourceFile.path_moved]
  exact .append (.cond (placed_badComponent f (hr (by decide)) line m)
    (.cond .nil (.single (hr (by decide)) _ _ _)))
    (placed_tooManyParameters (hr (by decide)) _ _ _)

theorem placed_scriptLine (text : List Char) (following : List (List Char)) (line : Nat) :
    Placed rules fun path => JavaScript.lineIssues (f.moved path) text following line := by
  simp only [JavaScript.lineIssues]
  refine .append (.append ?_ ?_) ?_
  · cases JavaScript.functionHead.search text with
    | none => exact .nil
    | some m => exact placed_scriptDeclaration f hr text following line m
  · cases JavaScript.arrowHead.search text with
    | none => exact .nil
    | some m => exact placed_scriptDeclaration f hr text following line m
  · cases JavaScript.componentClass.search text with
    | none => exact .nil
    | some m => exact placed_badComponent f (hr (by decide)) line m

theorem placed_scriptNames (n : Nat) (lines : List (List Char)) :
    Placed rules fun path => JavaScript.namingIssuesFrom (f.moved path) n lines := by
  induction lines generalizing n with
  | nil => exact .nil
  | cons line lines ih =>
    simp only [JavaScript.namingIssuesFrom]
    exact .append (placed_scriptLine f hr line (line :: lines) n) (ih (n + 1))

end

theorem placed_scriptCommands (hr : Catalogue.scriptCommand ∈ rules) :
    Placed rules fun path => JavaScript.commandIssues (f.moved path) := by
  simp only [JavaScript.commandIssues, SourceFile.lines_moved, SourceFile.path_moved]
  exact .map _ fun n _ => .single hr _ _ _

/-! ## Python -/

open Syntax (Node)

theorem placed_atNode (hr : r ∈ rules) (n : Node) (message : String) :
    Placed rules fun path => [Python.atNode (f.moved path) r n message] := by
  simp only [Python.atNode, SourceFile.path_moved]
  exact .single hr _ _ _

/-- The rules for functions. -/
def Python.functionRules : List RuleInfo :=
  [Catalogue.pythonFunctionName, Catalogue.pythonLongFunction, Catalogue.pythonManyParams]

/-- The rules for modules and their classes as a whole, nesting apart. -/
def Python.moduleRules : List RuleInfo :=
  [Catalogue.pythonFanOut, Catalogue.pythonLargeModule, Catalogue.pythonManyMethods,
   Catalogue.pythonCohesion]

theorem placed_pythonFunction (hr : Python.functionRules ⊆ rules) (n : Node) (name : String) :
    Placed rules fun path => Python.functionIssues (f.moved path) n name := by
  simp only [Python.functionIssues]
  exact .append (.append (.cond .nil (placed_atNode f (hr (by decide)) n _))
    (.cond (placed_atNode f (hr (by decide)) n _) .nil))
    (.cond (placed_atNode f (hr (by decide)) n _) .nil)

theorem placed_pythonNode (n : Node) :
    Placed Catalogue.checks fun path => Python.nodeIssues (f.moved path) n := by
  simp only [Python.nodeIssues]
  refine .append (.append (.append (.append (.append (.append ?_ ?_) ?_) ?_) ?_) ?_) ?_
  · cases Python.calledName? n with
    | none => exact .nil
    | some name => exact .cond (placed_atNode f (by decide) n _) .nil
  iterate 5 exact .cond (placed_atNode f (by decide) n _) .nil
  · split
    · exact placed_pythonFunction f (by decide) n _
    · exact .cond (placed_atNode f (by decide) n _) .nil
    · exact .nil

theorem placed_pythonClass (hr : Python.moduleRules ⊆ rules) (n : Node) (name : String) :
    Placed rules fun path => Python.classIssues (f.moved path) n name := by
  simp only [Python.classIssues]
  refine .append (.cond (placed_atNode f (hr (by decide)) n _) .nil) ?_
  split
  · exact .cond (placed_atNode f (hr (by decide)) n _) .nil
  · exact .nil

theorem placed_pythonModule (hr : Python.moduleRules ⊆ rules) (tree : Node) :
    Placed rules fun path => Python.moduleIssues (f.moved path) tree := by
  simp only [Python.moduleIssues, SourceFile.path_moved]
  refine .append (.append (.cond (.single (hr (by decide)) _ _ _) .nil)
    (.cond (.single (hr (by decide)) _ _ _) .nil)) (.flatMap _ fun n _ => ?_)
  cases Python.className? n with
  | none => exact .nil
  | some name => exact placed_pythonClass f hr n name

theorem placed_pythonTree :
    Placed Catalogue.checks fun path => Python.treeIssues (f.moved path) := by
  simp only [Python.treeIssues, SourceFile.text_moved, SourceFile.path_moved]
  cases Syntax.parse f.text with
  | error fault => exact .single (by decide) _ _ _
  | ok tree =>
    exact .append (.append (.flatMap _ fun n _ => placed_pythonNode f n)
      (.cond (.single (by decide) _ _ _) .nil)) (placed_pythonModule f (by decide) tree)

/-! ## All checks -/

/-- The names that a pattern finds. -/
def Part.badNames (r : RuleInfo) (pattern : Pattern) (i : Nat) (accepts : List Char → Bool)
    (message : String) : Part :=
  ⟨[r], Checks.badNames r pattern i accepts message,
    fun f => placed_badNames f (by simp) _ _ _ _⟩

/-- The lines of code that a test finds. -/
def Part.codeLines (r : RuleInfo) (message : String) (test : List Char → Bool) : Part :=
  ⟨[r], (Checks.codeLines · r message test), fun f => placed_codeLines f (by simp) _ _⟩

/-- The functions that are too long. -/
def Part.longFunctions (r : RuleInfo) (declaration : List Char → Option Pattern.Found) : Part :=
  ⟨[r], Checks.longFunctions r declaration, fun f => placed_longFunctions f (by simp) _⟩

/-- The blocks that are too deep. -/
def Part.deepBlocks (r : RuleInfo) : Part :=
  ⟨[r], Checks.deepBlocks r, fun f => placed_deepBlocks f (by simp)⟩

/-- The checks for any source. -/
def Part.anySource : Part := ⟨anySourceRules, AnySource.check, placed_anySource⟩

/-- The parts of the checks for Go. -/
def Go.parts : Parts Go.check where
  list := [.anySource, .badNames Catalogue.goPackageName _ _ _ _,
    ⟨[Catalogue.goFunctionName, Catalogue.goManyParams], _,
      fun f => placed_goFunctions f (by decide)⟩,
    .longFunctions Catalogue.goLongFunction _, .deepBlocks Catalogue.goNesting,
    ⟨[Catalogue.goFanOut], _, fun f => placed_goImports f (by decide)⟩,
    .codeLines Catalogue.goTls _ _, .codeLines Catalogue.goShell _ _]
  join_eq _ := rfl

/-- The parts of the checks for Kotlin. -/
def Kotlin.parts : Parts Kotlin.check where
  list := [.anySource, .badNames Catalogue.kotlinPackageName _ _ _ _,
    .badNames Catalogue.kotlinTypeName _ _ _ _,
    ⟨[Catalogue.kotlinFunctionName, Catalogue.kotlinManyParams], _,
      fun f => placed_kotlinFunctions f (by decide)⟩,
    .longFunctions Catalogue.kotlinLongFunction _, .deepBlocks Catalogue.kotlinNesting,
    .codeLines Catalogue.kotlinCommand _ fun code =>
      runtimeExec.occurs code || processBuilder.occurs code]
  join_eq _ := rfl

/-- The parts of the checks for Java. -/
def Java.parts : Parts Java.check where
  list := [.anySource, .badNames Catalogue.javaPackageName _ _ _ _,
    .badNames Catalogue.javaTypeName _ _ _ _,
    ⟨[Catalogue.javaFileName], _, fun f => placed_javaFileNames f (by decide)⟩,
    ⟨[Catalogue.javaMethodName], fun f => badNames _ _ _ (acceptsMethodName f) _ f,
      fun f => placed_badNames f (by decide) _ _ (acceptsMethodName f) _⟩,
    .badNames Catalogue.javaConstantName _ _ _ _,
    ⟨[Catalogue.javaManyParams, Catalogue.javaLongMethod],
      fun f => (visits methodHead.search 0 f.lines).flatMap (methodIssues f),
      fun f => placed_javaMethods f (by decide)⟩,
    .deepBlocks Catalogue.javaNesting,
    .codeLines Catalogue.javaCommand _ fun code =>
      runtimeExec.occurs code || newProcess.occurs code,
    ⟨[Catalogue.javaFanOut], _, fun f => placed_javaImports f (by decide)⟩,
    ⟨[Catalogue.javaManyMethods, Catalogue.javaCohesion],
      fun f => (classRanges f.lines).flatMap (classIssues f),
      fun f => placed_javaClasses f (by decide)⟩]
  join_eq _ := rfl

/-- The parts of the checks for JavaScript. -/
def JavaScript.parts : Parts JavaScript.check where
  list := [.anySource, ⟨declarationRules, fun f => namingIssuesFrom f 1 f.lines,
      fun f => placed_scriptNames f (by decide) 1 f.lines⟩,
    .longFunctions Catalogue.scriptLongFunction _, .deepBlocks Catalogue.scriptNesting,
    ⟨[Catalogue.scriptCommand], _, fun f => placed_scriptCommands f (by decide)⟩]
  join_eq _ := rfl

/-- The parts of the checks for Python. -/
def Python.parts : Parts Python.check where
  list := [.workItems, .secrets _, ⟨Catalogue.checks, _, placed_pythonTree⟩]
  join_eq _ := rfl

/-- **The parts of a group of checks.** -/
def Analyser.parts : (a : Analyser) → Parts a.check
  | python => Python.parts
  | java => Java.parts
  | kotlin => Kotlin.parts
  | javaScript => JavaScript.parts
  | go => Go.parts
  | anySource => AnySource.parts

theorem placed_check (a : Analyser) :
    Placed Catalogue.checks fun path => a.check (f.moved path) := by
  have hany : anySourceRules ⊆ Catalogue.checks := by decide
  refine a.parts.placed ?_ f
  cases a with
  | python =>
    exact List.forall_mem_cons.2 ⟨by decide, List.forall_mem_cons.2 ⟨by decide,
      List.forall_mem_singleton.2 (List.Subset.refl _)⟩⟩
  | anySource => decide
  | _ => exact List.forall_mem_cons.2 ⟨hany, by decide⟩

/-- **What is found in a file does not depend on its path**, and every issue names the path and is
of a rule of the checks. -/
theorem exists_findings : ∃ found : List (Finding Catalogue.checks), ∀ path,
    check (f.moved path) = found.map (·.issue path) := by
  simp only [check, SourceFile.suffix_moved]
  exact placed_check f _

end CodeAudit.Checks
