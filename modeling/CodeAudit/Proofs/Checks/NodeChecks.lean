import CodeAudit.Proofs.Checks.Blocks
import CodeAudit.Proofs.Pattern.Names
import CodeAudit.Proofs.Scan.Stack

/-!
# Checks of single nodes

Ten rules are told from a single node of the syntax tree: risky calls, broad handlers, names, and
the bounds on functions. `NodeCheck.message?` says of each rule what a node is reported for. Each
place of a tree is looked at once, so that every place whose node breaks a rule has one report of
the rule and no other place has any (`filter_check_eq`). All of it is lost if the tree is higher
than the stack has room for, and only then (`node_reports_exact_iff_room`).
-/

namespace CodeAudit.Checks.Python

open Syntax

variable {n value : Node} {name owner attr : String} {attrs : List String}

/-! ## Calls -/

/-- A call of a name. -/
def CallsName (name : String) (n : Node) : Prop :=
  n.label = .call ∧ ∃ callee, n.parts.head? = some callee ∧ callee.label = .name name

/-- An attribute of a name. -/
def IsAttribute (owner attr : String) (n : Node) : Prop :=
  n.label = .attribute attr ∧ ∃ value, n.parts.head? = some value ∧ value.label = .name owner

/-- A call of one of several attributes of a name. -/
def CallsOn (owner : String) (attrs : List String) (n : Node) : Prop :=
  ∃ attr ∈ attrs, n.label = .call ∧
    ∃ callee, n.parts.head? = some callee ∧ IsAttribute owner attr callee

/-- The first keyword argument with a name has a value. -/
def Passes (name : String) (value n : Node) : Prop :=
  ∃ before keyword after, n.parts = before ++ keyword :: after ∧
    (∀ p ∈ before, p.label ≠ .keyword (some name)) ∧ keyword.label = .keyword (some name) ∧
    keyword.parts.head? = some value

/-- What has no first part of a kind. -/
theorem not_firstPart {P : Prop} {Q : Node → Prop}
    (h : ∀ first rest, P → n.parts = first :: rest → False) :
    ¬ (P ∧ ∃ first, n.parts.head? = some first ∧ Q first) := by
  rintro ⟨hp, first, hhead, -⟩
  obtain ⟨rest, hparts⟩ := List.head?_eq_some_iff.1 hhead
  exact h first rest hp hparts

theorem calledName?_eq_some_iff : calledName? n = some name ↔ CallsName name n := by
  unfold calledName?
  split
  next callee rest hcall hparts =>
    have hhead : n.parts.head? = some callee := by rw [hparts]; rfl
    have hiff : CallsName name n ↔ callee.label = .name name := by
      simp [CallsName, hcall, hhead]
    rw [hiff]
    split
    next id hid => rw [hid, Label.name.injEq, Option.some.injEq]
    next hnot => exact iff_of_false (by simp) (hnot name)
  next hother => exact iff_of_false (by simp) (not_firstPart hother)

theorem attributeOfName?_eq_some_iff :
    attributeOfName? n = some (owner, attr) ↔ IsAttribute owner attr n := by
  unfold attributeOfName?
  split
  next attr' value rest hlabel hparts =>
    have hhead : n.parts.head? = some value := by rw [hparts]; rfl
    have hiff : IsAttribute owner attr n ↔ attr' = attr ∧ value.label = .name owner := by
      simp [IsAttribute, hlabel, hhead]
    rw [hiff]
    split
    next id hid =>
      rw [hid, Label.name.injEq, Option.some.injEq, Prod.mk.injEq, and_comm]
    next hnot => exact iff_of_false (by simp) fun h => hnot owner h.2
  next hother => exact iff_of_false (by simp) (not_firstPart (hother attr))

theorem calledAttribute?_eq_some_iff : calledAttribute? n = some (owner, attr) ↔
    n.label = .call ∧ ∃ callee, n.parts.head? = some callee ∧ IsAttribute owner attr callee := by
  unfold calledAttribute?
  split
  next callee rest hcall hparts =>
    have hhead : n.parts.head? = some callee := by rw [hparts]; rfl
    simp [hcall, hhead, attributeOfName?_eq_some_iff]
  next hother => exact iff_of_false (by simp) (not_firstPart hother)

theorem callsOn_iff : CallsOn owner attrs n ↔
    ∃ attr ∈ attrs, calledAttribute? n = some (owner, attr) := by
  simp only [CallsOn, calledAttribute?_eq_some_iff]

theorem keywordValue?_eq_some_iff : keywordValue? n name = some value ↔ Passes name value n := by
  -- the search stops at the first keyword of the name, whether or not it has a value
  unfold keywordValue? Passes
  rw [Option.bind_eq_some_iff]
  simp only [List.find?_eq_some_iff_append, beq_iff_eq, Bool.not_eq_true', beq_eq_false_iff_ne]
  constructor
  · rintro ⟨keyword, ⟨hlabel, before, after, hparts, hbefore⟩, hvalue⟩
    exact ⟨before, keyword, after, hparts, hbefore, hlabel, hvalue⟩
  · rintro ⟨before, keyword, after, hparts, hbefore, hlabel, hvalue⟩
    exact ⟨keyword, ⟨hlabel, before, after, hparts, hbefore⟩, hvalue⟩

/-- A keyword argument that is a constant. -/
theorem any_isConstant_iff {literal : Literal} :
    (keywordValue? n name).any (isConstant literal) = true ↔
      ∃ value, Passes name value n ∧ value.label = .constant literal := by
  simp only [Option.any_eq_true, keywordValue?_eq_some_iff, isConstant, beq_iff_eq]

/-- A call of a process function with `shell=True`. -/
def ShellCall (n : Node) : Prop :=
  CallsOn "subprocess" ["run", "Popen", "call", "check_call", "check_output"] n ∧
    ∃ value, Passes "shell" value n ∧ value.label = .constant .true

/-- A call of `yaml.load` without `Loader=yaml.SafeLoader`. -/
def YamlLoad (n : Node) : Prop :=
  CallsOn "yaml" ["load"] n ∧
    ¬ ∃ loader, Passes "Loader" loader n ∧ IsAttribute "yaml" "SafeLoader" loader

/-- A call that reads a pickle. -/
def PickleLoad (n : Node) : Prop := CallsOn "pickle" ["load", "loads"] n

/-- A request with `verify=False`. -/
def UnverifiedRequest (n : Node) : Prop :=
  CallsOn "requests" ["get", "post", "put", "patch", "delete", "request", "head", "options"] n ∧
    ∃ value, Passes "verify" value n ∧ value.label = .constant .false

/-- The attribute that a call takes from a name is the one it has. -/
theorem callsOn_of_called (h : calledAttribute? n = some (owner, attr)) :
    CallsOn owner attrs n ↔ attr ∈ attrs := by
  rw [callsOn_iff, h]
  simp

theorem not_callsOn (h : ∀ attr, calledAttribute? n = some (owner, attr) → False) :
    ¬ CallsOn owner attrs n := by
  rw [callsOn_iff]
  rintro ⟨attr, -, hcalled⟩
  exact h attr hcalled

theorem callsShell_iff : callsShell n = true ↔ ShellCall n := by
  unfold callsShell ShellCall
  split
  next attr hcalled =>
    rw [Bool.and_eq_true, List.contains_iff_mem, any_isConstant_iff, callsOn_of_called hcalled]
  next hother => exact iff_of_false Bool.false_ne_true fun h => not_callsOn hother h.1

theorem skipsVerification_iff : skipsVerification n = true ↔ UnverifiedRequest n := by
  unfold skipsVerification UnverifiedRequest
  split
  next attr hcalled =>
    rw [Bool.and_eq_true, List.contains_iff_mem, any_isConstant_iff, callsOn_of_called hcalled]
  next hother => exact iff_of_false Bool.false_ne_true fun h => not_callsOn hother h.1

theorem loadsPickle_iff : loadsPickle n = true ↔ PickleLoad n := by
  unfold loadsPickle PickleLoad
  split
  next attr hcalled =>
    rw [callsOn_of_called hcalled]
    simp
  next hother => exact iff_of_false Bool.false_ne_true (not_callsOn hother)

theorem loadsYaml_iff : loadsYaml n = true ↔ YamlLoad n := by
  unfold loadsYaml YamlLoad
  split
  next hcalled =>
    have hcalls : CallsOn "yaml" ["load"] n := (callsOn_of_called hcalled).2 List.mem_cons_self
    simp only [hcalls, true_and, ← keywordValue?_eq_some_iff, ← attributeOfName?_eq_some_iff]
    cases keywordValue? n "Loader" <;> simp
  next hother =>
    refine iff_of_false Bool.false_ne_true fun h => ?_
    obtain ⟨attr, hattr, hcalled⟩ := callsOn_iff.1 h.1
    exact hother (List.mem_singleton.1 hattr ▸ hcalled)

/-! ## Handlers -/

/-- A type of exceptions that catches nearly everything, or a tuple with one. -/
inductive CatchesAll : Node → Prop
  | name {n : Node} {id : String} (hlabel : n.label = .name id)
      (hid : id = "Exception" ∨ id = "BaseException") : CatchesAll n
  | tuple {n part : Node} (hlabel : n.label = .tuple) (hpart : part ∈ n.parts)
      (hcatches : CatchesAll part) : CatchesAll n

/-- A handler without a type, whose first part is a statement of its body, or with a type that
catches nearly everything. -/
def BroadHandler (n : Node) : Prop :=
  n.label = .exceptHandler ∧
    ((∀ first, n.parts.head? = some first → first.label.isStatement = true) ∨
      ∃ type, n.parts.head? = some type ∧ CatchesAll type)

-- A tuple is broad by its parts, so nodes and lists of nodes go together.
mutual

theorem isBroadType_iff : (n : Node) → (isBroadType n = true ↔ CatchesAll n)
  | .mk label span parts => by
    rw [isBroadType.eq_def]
    dsimp only
    split
    next id =>
      rw [Bool.or_eq_true, beq_iff_eq, beq_iff_eq]
      refine ⟨fun h => .name rfl h, fun h => ?_⟩
      cases h with
      | name hlabel hid => exact Label.name.inj hlabel ▸ hid
      | tuple hlabel => exact absurd hlabel (by simp [Node.label])
    next =>
      rw [anyBroad_iff parts]
      refine ⟨fun ⟨part, hpart, h⟩ => .tuple rfl hpart h, fun h => ?_⟩
      cases h with
      | name hlabel => exact absurd hlabel (by simp [Node.label])
      | tuple _ hpart hcatches => exact ⟨_, hpart, hcatches⟩
    next hname htuple =>
      refine iff_of_false Bool.false_ne_true fun h => ?_
      cases h with
      | name hlabel => exact hname _ hlabel
      | tuple hlabel => exact htuple hlabel

theorem anyBroad_iff : (nodes : List Node) →
    (isBroadType.anyBroad nodes = true ↔ ∃ n ∈ nodes, CatchesAll n)
  | [] => by simp [isBroadType.anyBroad]
  | n :: rest => by
    rw [isBroadType.anyBroad, Bool.or_eq_true, isBroadType_iff n, anyBroad_iff rest]
    simp

end

theorem isBroadHandler_iff : isBroadHandler n = true ↔ BroadHandler n := by
  unfold isBroadHandler BroadHandler
  rw [Bool.and_eq_true, beq_iff_eq]
  refine and_congr_right fun _ => ?_
  cases n.parts with
  | nil => simp
  | cons first rest => simp [isBroadType_iff]

/-! ## Definitions -/

/-- A function definition. -/
def IsFunction (n : Node) : Prop := ∃ isAsync name, n.label = .functionDef isAsync name

/-- The number of lines of a definition. -/
def definitionLines (n : Node) : Nat := n.span.endLine - n.span.line + 1

/-- A function whose name is neither in snake case nor between two underscores on each side. -/
def MisnamedFunction (n : Node) : Prop :=
  ∃ isAsync name, n.label = .functionDef isAsync name ∧
    ¬ (['_', '_'] <+: name.toList ∧ ['_', '_'] <:+ name.toList) ∧
    ¬ ∃ c rest, name.toList = c :: rest ∧ (c.isLower = true ∨ c = '_') ∧
      ∀ d ∈ rest, d.isLower = true ∨ d.isDigit = true ∨ d = '_'

/-- A class whose name is not a capital with letters and digits behind it. -/
def MisnamedClass (n : Node) : Prop :=
  ∃ name, n.label = .classDef name ∧
    ¬ ∃ c rest, name.toList = c :: rest ∧ c.isUpper = true ∧ ∀ d ∈ rest, d.isAlphanum = true

theorem functionName?_eq_some_iff :
    functionName? n = some name ↔ ∃ isAsync, n.label = .functionDef isAsync name := by
  unfold functionName?
  split
  next isAsync name' hlabel => simp [hlabel]
  next hother => exact iff_of_false (by simp) fun ⟨isAsync, h⟩ => hother isAsync name h

theorem className?_eq_some_iff : className? n = some name ↔ n.label = .classDef name := by
  unfold className?
  split
  next name' hlabel => simp [hlabel]
  next hother => exact iff_of_false (by simp) (hother name)

theorem allowsFunctionName_iff : allowsFunctionName name = true ↔
    (['_', '_'] <+: name.toList ∧ ['_', '_'] <:+ name.toList) ∨
      ∃ c rest, name.toList = c :: rest ∧ (c.isLower = true ∨ c = '_') ∧
        ∀ d ∈ rest, d.isLower = true ∨ d.isDigit = true ∨ d = '_' := by
  unfold allowsFunctionName snakeCase startsWith
  simp only [Bool.or_eq_true, Bool.and_eq_true, List.isPrefixOf_iff_prefix,
    List.isSuffixOf_iff_suffix, Pattern.matchesAll_one_star, beq_iff_eq, or_assoc]
  rfl

theorem isFunction_iff : (functionName? n).isSome = true ↔ IsFunction n := by
  rw [Option.isSome_iff_exists, IsFunction, exists_comm]
  simp only [functionName?_eq_some_iff]

theorem misnamedFunction_iff :
    (functionName? n).any (!allowsFunctionName ·) = true ↔ MisnamedFunction n := by
  simp only [Option.any_eq_true, functionName?_eq_some_iff, Bool.not_eq_true',
    ← Bool.not_eq_true, allowsFunctionName_iff, not_or, MisnamedFunction]
  constructor
  · rintro ⟨name, ⟨isAsync, hlabel⟩, hname⟩
    exact ⟨isAsync, name, hlabel, hname⟩
  · rintro ⟨isAsync, name, hlabel, hname⟩
    exact ⟨name, ⟨isAsync, hlabel⟩, hname⟩

theorem misnamedClass_iff :
    (className? n).any (!isUpperCamelCase ·.toList) = true ↔ MisnamedClass n := by
  simp only [Option.any_eq_true, className?_eq_some_iff, Bool.not_eq_true', ← Bool.not_eq_true,
    isUpperCamelCase_iff, MisnamedClass]

/-! ## The checks -/

instance : Decidable (CallsName name n) := decidable_of_iff _ calledName?_eq_some_iff
instance : Decidable (BroadHandler n) := decidable_of_iff _ isBroadHandler_iff
instance : Decidable (ShellCall n) := decidable_of_iff _ callsShell_iff
instance : Decidable (YamlLoad n) := decidable_of_iff _ loadsYaml_iff
instance : Decidable (PickleLoad n) := decidable_of_iff _ loadsPickle_iff
instance : Decidable (UnverifiedRequest n) := decidable_of_iff _ skipsVerification_iff
instance : Decidable (IsFunction n) := decidable_of_iff _ isFunction_iff
instance : Decidable (MisnamedFunction n) := decidable_of_iff _ misnamedFunction_iff
instance : Decidable (MisnamedClass n) := decidable_of_iff _ misnamedClass_iff

/-- The checks of single nodes. -/
inductive NodeCheck where
  | dynamicExecution
  | broadHandler
  | shellCall
  | yamlLoad
  | pickleLoad
  | unverifiedRequest
  | functionName
  | longFunction
  | manyParams
  | className
  deriving Repr, DecidableEq

namespace NodeCheck

/-- The checks in the order in which a node gets them. -/
def all : List NodeCheck :=
  [dynamicExecution, broadHandler, shellCall, yamlLoad, pickleLoad, unverifiedRequest, functionName,
   longFunction, manyParams, className]

/-- The rule of a check. -/
def rule : NodeCheck → RuleInfo
  | dynamicExecution => Catalogue.dynamicExecution
  | broadHandler => Catalogue.broadExcept
  | shellCall => Catalogue.shellTrue
  | yamlLoad => Catalogue.yamlLoad
  | pickleLoad => Catalogue.pickleLoad
  | unverifiedRequest => Catalogue.verifyFalse
  | functionName => Catalogue.pythonFunctionName
  | longFunction => Catalogue.pythonLongFunction
  | manyParams => Catalogue.pythonManyParams
  | className => Catalogue.pythonClassName

/-- **What a node is reported for by a check**, if by anything. -/
def message? (n : Node) : NodeCheck → Option String
  | dynamicExecution =>
    if CallsName "eval" n then some "Avoid eval() because it executes dynamic code."
    else if CallsName "exec" n then some "Avoid exec() because it executes dynamic code."
    else none
  | broadHandler =>
    if BroadHandler n then some "Avoid bare except or except Exception; catch specific errors."
    else none
  | shellCall =>
    if ShellCall n then
      some "Avoid subprocess calls with shell=True; pass argument arrays instead."
    else none
  | yamlLoad =>
    if YamlLoad n then some "Use yaml.safe_load() or pass Loader=yaml.SafeLoader to yaml.load()."
    else none
  | pickleLoad =>
    if PickleLoad n then some "Avoid pickle.load()/loads() on untrusted data; use safer formats."
    else none
  | unverifiedRequest =>
    if UnverifiedRequest n then
      some "requests call with verify=False disables TLS certificate validation."
    else none
  | functionName =>
    if MisnamedFunction n then some "Function names should be snake_case." else none
  | longFunction =>
    if IsFunction n ∧ 60 < definitionLines n then
      some s!"Function spans {definitionLines n} lines; target at most 60."
    else none
  | manyParams =>
    if IsFunction n ∧ 6 < countedParams n then
      some s!"Function has {countedParams n} parameters; target at most 6."
    else none
  | className => if MisnamedClass n then some "Class names should be UpperCamelCase." else none

/-- The report of a check at a node: its line, and the column behind its offset. -/
def report? (f : SourceFile) (n : Node) (c : NodeCheck) : Option Issue :=
  (c.message? n).map fun message =>
    c.rule.issue f.path n.span.line (n.span.col - n.span.shift + 1 : Nat) message

variable {f : SourceFile}

theorem ruleId_of_report? {c : NodeCheck} {i : Issue} (h : i ∈ c.report? f n) :
    i.ruleId = c.rule.id := by
  obtain ⟨message, -, rfl⟩ := Option.map_eq_some_iff.1 h
  rfl

theorem rule_injective : Function.Injective fun c : NodeCheck => c.rule.id := by
  intro c d h
  cases c <;> cases d <;> first | rfl | exact absurd h (by decide)

/-- A report of one message, where a test says whether the node is reported. -/
theorem report_eq {A P : Prop} [Decidable A] [Decidable P] (h : A ↔ P) (c : NodeCheck)
    (message : String) (hmessage : c.message? n = if P then some message else none) :
    (if A then [atNode f c.rule n message] else []) = (c.report? f n).toList := by
  rw [report?, hmessage]
  by_cases hp : P
  · rw [if_pos (h.2 hp), if_pos hp]
    rfl
  · rw [if_neg fun ha => hp (h.1 ha), if_neg hp]
    rfl

theorem append_congr {a b c d : List Issue} (h : a = c) (h' : b = d) : a ++ b = c ++ d := by
  rw [h, h']

/-- The issues of a function definition are the reports of the checks of functions. -/
theorem functionIssues_eq (h : functionName? n = some name) :
    functionIssues f n name = (functionName.report? f n).toList ++
      (longFunction.report? f n).toList ++ (manyParams.report? f n).toList := by
  have hfunction : IsFunction n := isFunction_iff.1 (by rw [h]; rfl)
  have hnamed : ¬ allowsFunctionName name = true ↔ MisnamedFunction n := by
    rw [← misnamedFunction_iff, h, Option.any_some, Bool.not_eq_true', Bool.not_eq_true]
  have hbound : ∀ {a b : Nat}, a < b ↔ IsFunction n ∧ a < b := (and_iff_right hfunction).symm
  refine append_congr (append_congr ?_ (report_eq hbound longFunction _ ?_))
    (report_eq hbound manyParams _ ?_)
  · rw [← report_eq hnamed functionName _ rfl, ite_not]
    rfl
  · simp only [message?, String.append_assoc]
    rfl
  · simp only [message?, String.append_assoc]
    rfl

/-- The checks of functions have nothing to report of other nodes. -/
theorem functionReports_of_not_function (h : ¬ IsFunction n) :
    (functionName.report? f n).toList ++ (longFunction.report? f n).toList ++
      (manyParams.report? f n).toList = [] := by
  have hnamed : ¬ MisnamedFunction n := fun ⟨isAsync, name, hlabel, _⟩ => h ⟨isAsync, name, hlabel⟩
  simp [report?, message?, h, hnamed]

theorem report?_of_not_class (h : ∀ name, n.label = .classDef name → False) :
    className.report? f n = none := by
  have hnamed : ¬ MisnamedClass n := fun ⟨name, hlabel, _⟩ => h name hlabel
  simp [report?, message?, hnamed]

/-- **The issues of a node are the reports of the checks.** -/
theorem nodeIssues_eq : nodeIssues f n = all.flatMap fun c => (c.report? f n).toList := by
  -- check by check; only the two names of dynamic calls and the kinds of definitions need cases
  refine (append_congr (append_congr (append_congr (append_congr (append_congr (append_congr
    (?dynamic : _ = (dynamicExecution.report? f n).toList)
    (report_eq isBroadHandler_iff broadHandler _ rfl))
    (report_eq callsShell_iff shellCall _ rfl)) (report_eq loadsYaml_iff yamlLoad _ rfl))
    (report_eq loadsPickle_iff pickleLoad _ rfl))
    (report_eq skipsVerification_iff unverifiedRequest _ rfl))
    (?definition : _ = (functionName.report? f n).toList ++ (longFunction.report? f n).toList ++
      (manyParams.report? f n).toList ++ (className.report? f n).toList)).trans ?_
  case dynamic =>
    unfold report? message?
    simp only [← calledName?_eq_some_iff]
    cases calledName? n with
    | none => rfl
    | some name =>
      simp only [Option.some.injEq, Bool.or_eq_true, beq_iff_eq]
      by_cases heval : name = "eval"
      · subst heval
        rfl
      · by_cases hexec : name = "exec"
        · subst hexec
          rfl
        · simp [heval, hexec]
  case definition =>
    split
    next isAsync name hlabel =>
      have hname : functionName? n = some name := functionName?_eq_some_iff.2 ⟨isAsync, hlabel⟩
      rw [functionIssues_eq hname, report?_of_not_class (by simp [hlabel]), Option.toList_none,
        List.append_nil]
    next name hlabel =>
      have hname : className? n = some name := className?_eq_some_iff.2 hlabel
      have hclass : (!isUpperCamelCase name.toList) = true ↔ MisnamedClass n := by
        rw [← misnamedClass_iff, hname, Option.any_some]
      rw [functionReports_of_not_function (by simp [IsFunction, hlabel]), List.nil_append]
      exact report_eq hclass className _ rfl
    next hfunction hclass =>
      rw [functionReports_of_not_function fun ⟨isAsync, name, h⟩ => hfunction isAsync name h,
        report?_of_not_class hclass]
      rfl
  · simp only [all, List.flatMap_cons, List.flatMap_nil, List.append_nil, List.append_assoc]

/-- A check has one report of a node at most. -/
theorem filter_nodeIssues (c : NodeCheck) :
    (nodeIssues f n).filter (·.ruleId == c.rule.id) = (c.report? f n).toList := by
  have hown : ∀ d : NodeCheck, (d.report? f n).toList.filter (·.ruleId == c.rule.id) =
      if d = c then (d.report? f n).toList else [] := fun d => by
    rw [filter_report (fun _ => ruleId_of_report?)]
    simp only [rule_injective.eq_iff]
  rw [nodeIssues_eq, List.filter_flatMap]
  simp only [hown]
  -- every check is in the list once
  cases c <;> simp [all]

/-- What is reported by a rule of these checks is reported of the nodes of the tree. -/
theorem filter_check_nodes {tree : Node} (h : parse f.text = .ok tree) (c : NodeCheck) :
    (check f).filter (·.ruleId == c.rule.id) =
      tree.walk.flatMap fun n => (nodeIssues f n).filter (·.ruleId == c.rule.id) := by
  have hid : ∀ r ∈ Catalogue.pythonNesting :: moduleRules, r.id ≠ c.rule.id := by
    cases c <;> decide
  have hpart : parts.list.filter (Part.has c.rule.id) =
      [⟨Catalogue.checks, treeIssues, placed_pythonTree⟩] := by
    cases c <;> rfl
  have htree : treeIssues f = tree.walk.flatMap (nodeIssues f) ++
      (if maxNesting < tree.nesting then [Catalogue.pythonNesting.issue f.path 1 1
        s!"Maximum nesting depth is {tree.nesting}; keep it at or below {maxNesting}."] else []) ++
      moduleIssues f tree := by
    rw [treeIssues, h]
  have hnesting : Placed (Catalogue.pythonNesting :: moduleRules) fun path =>
      if maxNesting < tree.nesting then [Catalogue.pythonNesting.issue path 1 1
        s!"Maximum nesting depth is {tree.nesting}; keep it at or below {maxNesting}."] else [] :=
    .cond (.single (by decide) _ _ _) .nil
  calc (check f).filter (·.ruleId == c.rule.id)
    _ = (treeIssues f).filter (·.ruleId == c.rule.id) := parts.filter_eq c.rule hpart f
    _ = (tree.walk.flatMap (nodeIssues f)).filter (·.ruleId == c.rule.id) := by
        rw [htree]
        exact (filter_append_placed hid _ (placed_pythonModule f (by decide) tree) f.path).trans
          (filter_append_placed hid _ hnesting f.path)
    _ = tree.walk.flatMap fun n => (nodeIssues f n).filter (·.ruleId == c.rule.id) :=
        List.filter_flatMap

end NodeCheck

/-! ## The stack -/

/-- A stack that has room for a source: the parser gets through it, and its tree has no more levels
than can be gone down. -/
structure HasRoom (stack : Stack) (f : SourceFile) (tree : Node) : Prop where
  parser : stack.source? f.text = none
  levels : tree.reach ≤ stack.levels

/-- The checks of a file end with issues exactly if the stack has room for it. -/
theorem checkWithin_eq_ok_iff {f : SourceFile} {tree : Node} (h : parse f.text = .ok tree)
    {stack : Stack} {issues : List Issue} :
    Analyser.python.checkWithin stack f = .ok issues ↔
      HasRoom stack f tree ∧ issues = check f := by
  have hroom : Analyser.python.overflow? stack f = none ↔ HasRoom stack f tree := by
    rw [Analyser.overflow?, if_pos rfl, overflow?_eq_none_iff, h]
    simp only [Except.ok.injEq, forall_eq']
    exact ⟨fun hfits => ⟨hfits.1, hfits.2⟩, fun hfits => ⟨hfits.parser, hfits.levels⟩⟩
  unfold Analyser.checkWithin
  split
  next o ho =>
    refine iff_of_false (by simp) fun hok => ?_
    rw [hroom.2 hok.1] at ho
    exact absurd ho (by simp)
  next ho =>
    rw [Except.ok.injEq, and_iff_right (hroom.1 ho)]
    exact eq_comm

end CodeAudit.Checks.Python
