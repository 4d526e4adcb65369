import CodeAudit.Proofs.Checks.NodeChecks
import CodeAudit.Proofs.Syntax.Trees

/-!
# The bound on parameters

Every function of a parsed source begins with a parameter list, which has parameters in five roles.
Those before the slash are not counted towards the bound. So the bound is reported as it should be,
with the number of all parameters, exactly for the functions that have none of that role, and for
those that keep to the bound with all of them (`param_bound_counts_all_iff`).
-/

namespace CodeAudit

/-! ## Counting by role -/

namespace Syntax

/-- Whether a kind is that of parameters in roles that pass a test. -/
def Label.hasRole (test : ParamRole → Bool) : Label → Bool
  | .param role _ => test role
  | _ => false

theorem Label.hasRole_of_not_isParam {test : ParamRole → Bool} {label : Label}
    (h : label.isParam = false) : label.hasRole test = false := by
  cases label with
  | param role name => cases h
  | _ => rfl

namespace ParamList

/-- The number of all parameters. -/
def total (l : ParamList) : Nat :=
  l.positionalOnly.length + l.plain.length + l.variadic.toList.length + l.keywordOnly.length +
    l.keywordVariadic.toList.length

variable {l : ParamList} {test : ParamRole → Bool}

theorem countP_paramNodes {role : ParamRole} (ps : List Param) :
    (ps.map (·.node role)).countP (·.label.hasRole test) =
      if test role then ps.length else 0 := by
  have htest : ∀ p : Param, (p.node role).label.hasRole test = test role := fun _ => rfl
  rw [List.countP_map, Function.comp_def]
  simp only [htest]
  cases test role with
  | false => simp
  | true => simp

theorem countP_optionalParam {role : ParamRole} (p : Option Param) :
    (p.map (·.node role)).toList.countP (·.label.hasRole test) =
      if test role then p.toList.length else 0 := by
  rw [Option.toList_map]
  exact countP_paramNodes p.toList

theorem countP_defaults {ps : List Param}
    (h : ∀ p ∈ ps, ∀ d ∈ p.default, d.label.isParam = false) :
    (ps.filterMap (·.default)).countP (·.label.hasRole test) = 0 := by
  refine List.countP_eq_zero.2 fun d hd => ?_
  obtain ⟨p, hp, hdefault⟩ := List.mem_filterMap.1 hd
  rw [Label.hasRole_of_not_isParam (h p hp d hdefault)]
  exact Bool.false_ne_true

/-- **The parameters of a list are counted by role.** -/
theorem countP_parts (h : l.Plain) :
    l.node.parts.countP (·.label.hasRole test) =
      (if test .positionalOnly then l.positionalOnly.length else 0) +
      (if test .plain then l.plain.length else 0) +
      (if test .variadic then l.variadic.toList.length else 0) +
      (if test .keywordOnly then l.keywordOnly.length else 0) +
      (if test .keywordVariadic then l.keywordVariadic.toList.length else 0) := by
  have hpositional : ∀ p ∈ l.positionalOnly ++ l.plain, ∀ d ∈ p.default, d.label.isParam = false :=
    fun p hp => h p (List.mem_append_left _ hp)
  have hkeyword : ∀ p ∈ l.keywordOnly, ∀ d ∈ p.default, d.label.isParam = false :=
    fun p hp => h p (List.mem_append_right _ hp)
  simp only [node, Node.parts, List.countP_append, countP_paramNodes, countP_optionalParam,
    countP_defaults hpositional, countP_defaults hkeyword, Nat.add_zero]

end ParamList

end Syntax

namespace Checks.Python

open Syntax

variable {n : Node} {l : ParamList} {f : SourceFile}

theorem countedParams_eq_countP (h : n.parts.head? = some l.node) :
    countedParams n = l.node.parts.countP (·.label.hasRole (· != .positionalOnly)) := by
  obtain ⟨rest, hparts⟩ := List.head?_eq_some_iff.1 h
  unfold countedParams
  rw [hparts, List.countP_eq_length_filter]
  rfl

/-- All parameters are counted but the positional-only ones. -/
theorem countedParams_eq (hplain : l.Plain) (h : n.parts.head? = some l.node) :
    countedParams n = l.total - l.positionalOnly.length := by
  have hcounted : countedParams n = 0 + l.plain.length + l.variadic.toList.length +
      l.keywordOnly.length + l.keywordVariadic.toList.length := by
    rw [countedParams_eq_countP h, ParamList.countP_parts hplain]
    rfl
  rw [hcounted, ParamList.total]
  omega

/-! ## Reports -/

/-- What is reported of a node by the rule on parameters. -/
def paramReports (f : SourceFile) (n : Node) : List Issue :=
  (nodeIssues f n).filter (·.ruleId == Catalogue.pythonManyParams.id)

/-- The report of more than six parameters at a node. -/
def overfull? (f : SourceFile) (n : Node) (count : Nat) : Option Issue :=
  if 6 < count then
    some (Catalogue.pythonManyParams.issue f.path n.span.line
      (n.span.col - n.span.shift + 1 : Nat)
      s!"Function has {count} parameters; target at most 6.")
  else none

theorem paramReports_eq : paramReports f n = (NodeCheck.manyParams.report? f n).toList :=
  NodeCheck.filter_nodeIssues .manyParams

theorem paramReports_of_not_function (h : ¬ IsFunction n) : paramReports f n = [] := by
  rw [paramReports_eq, NodeCheck.report?, NodeCheck.message?, if_neg fun hn => h hn.1]
  rfl

theorem paramReports_of_function (h : IsFunction n) :
    paramReports f n = (overfull? f n (countedParams n)).toList := by
  rw [paramReports_eq, NodeCheck.report?, NodeCheck.message?, overfull?]
  by_cases hmany : 6 < countedParams n
  · rw [if_pos ⟨h, hmany⟩, if_pos hmany]
    rfl
  · rw [if_neg fun hn => hmany hn.2, if_neg hmany]
    rfl

/-- Reports of different numbers differ. -/
theorem overfull?_eq_iff {a b : Nat} (hle : a ≤ b) :
    (overfull? f n a).toList = (overfull? f n b).toList ↔ a = b ∨ b ≤ 6 := by
  constructor
  · intro hlist
    by_contra hnot
    have hlt : a < b ∧ 6 < b := by omega
    have h : overfull? f n a = overfull? f n b := by simpa using congrArg List.head? hlist
    rw [overfull?, overfull?, if_pos hlt.2] at h
    split at h
    · -- the texts around the numbers are the same, so the numbers are
      have hmessage := congrArg Issue.message (Option.some.inj h)
      have htext := (String.append_left_inj _).1 hmessage
      have hnumber := toString_inj ((String.append_right_inj _).1 htext)
      omega
    · exact absurd h (by simp)
  · rintro (rfl | hb)
    · rfl
    · rw [overfull?, overfull?, if_neg (by omega), if_neg (by omega)]

/-- **The bound on parameters counts all of them, except before a slash.** On a stack that has room
for the source, what is reported by the rule on parameters is reported of the nodes of the tree, and
of functions only. A function has a parameter list; the report is that of the list without its
positional-only parameters, and so the one of all parameters exactly if there are none of that role,
or no more than six in all. -/
theorem param_bound_counts_all_iff (f : SourceFile) (tree : Node) (h : parse f.text = .ok tree) :
    (∀ stack, HasRoom stack f tree → ∃ issues,
      Analyser.python.checkWithin stack f = .ok issues ∧
      issues.filter (·.ruleId == Catalogue.pythonManyParams.id) =
        tree.walk.flatMap (paramReports f)) ∧
    ∀ n ∈ tree.walk, (¬ IsFunction n → paramReports f n = []) ∧
      (IsFunction n → ∃ l : ParamList, l.Plain ∧ n.parts.head? = some l.node ∧
        paramReports f n = (overfull? f n (l.total - l.positionalOnly.length)).toList ∧
        (paramReports f n = (overfull? f n l.total).toList ↔
          l.positionalOnly = [] ∨ l.total ≤ 6)) := by
  refine ⟨fun stack hroom => ⟨check f, (checkWithin_eq_ok_iff h).2 ⟨hroom, rfl⟩, ?_⟩,
    fun n hn => ⟨paramReports_of_not_function, fun hfunction => ?_⟩⟩
  · exact NodeCheck.filter_check_nodes h .manyParams
  · obtain ⟨isAsync, name, hlabel⟩ := hfunction
    obtain ⟨l, hplain, hhead⟩ := exists_paramList_of_mem_walk h hn hlabel
    have hreports : paramReports f n =
        (overfull? f n (l.total - l.positionalOnly.length)).toList := by
      rw [paramReports_of_function ⟨isAsync, name, hlabel⟩, countedParams_eq hplain hhead]
    have hpositional : l.positionalOnly.length ≤ l.total := by
      rw [ParamList.total]
      omega
    refine ⟨l, hplain, hhead, hreports, ?_⟩
    -- nothing is left out exactly if there is nothing before the slash
    rw [hreports, overfull?_eq_iff (Nat.sub_le _ _), ← List.length_eq_zero_iff]
    omega

/-- A function with six plain parameters and one behind a star. -/
def sevenPlain : SourceFile := .of ⟨.relative, ["a.py"]⟩ "def f(a,b,c,d,e,g,*,h):0".toList

/-- Its one function is reported, and with all parameters exactly if it keeps to the condition. -/
theorem sevenPlain_counts_all_iff :
    ∃ tree n, parse sevenPlain.text = .ok tree ∧ HasRoom .usual sevenPlain tree ∧ n ∈ tree.walk ∧
      IsFunction n ∧ (∃ issues, Analyser.python.checkWithin .usual sevenPlain = .ok issues ∧
        issues.filter (·.ruleId == Catalogue.pythonManyParams.id) =
          tree.walk.flatMap (paramReports sevenPlain)) ∧
      ∃ l : ParamList, n.parts.head? = some l.node ∧
        (paramReports sevenPlain n = (overfull? sevenPlain n l.total).toList ↔
          l.positionalOnly = [] ∨ l.total ≤ 6) := by
  have hknown : (parse sevenPlain.text).toOption.any
      (fun tree => tree.reach ≤ Stack.usual.levels && tree.walk.any (IsFunction ·)) = true := by
    decide +kernel
  cases htree : parse sevenPlain.text with
  | error fault => exact absurd (htree ▸ hknown) (by simp [Except.toOption])
  | ok tree =>
    obtain ⟨hlevels, hany⟩ :
        tree.reach ≤ Stack.usual.levels ∧ tree.walk.any (IsFunction ·) = true := by
      simpa [htree, Except.toOption] using hknown
    obtain ⟨n, hn, hfunction⟩ := List.any_eq_true.1 hany
    have hfunction := of_decide_eq_true hfunction
    obtain ⟨hissues, hnodes⟩ := param_bound_counts_all_iff sevenPlain tree htree
    obtain ⟨l, -, hhead, -, hiff⟩ := (hnodes n hn).2 hfunction
    have hroom : HasRoom .usual sevenPlain tree := ⟨rfl, hlevels⟩
    exact ⟨tree, n, rfl, hroom, hn, hfunction, hissues .usual hroom, l, hhead, hiff⟩

/-- A function with seven parameters before a slash. -/
def sevenPositional : SourceFile := .of ⟨.relative, ["a.py"]⟩ "def f(a,b,c,d,e,g,h,/):0".toList

/-- **Seven parameters before a slash are not reported.** -/
theorem sevenPositional_not_reported :
    (∃ tree n, parse sevenPositional.text = .ok tree ∧ n ∈ tree.walk ∧ IsFunction n ∧
      ∃ l : ParamList, l.Plain ∧ n.parts.head? = some l.node ∧ l.total = 7) ∧
    (check sevenPositional).filter (·.ruleId == Catalogue.pythonManyParams.id) = [] := by
  have hknown : (parse sevenPositional.text).toOption.any (fun tree => tree.walk.any fun n =>
      decide (IsFunction n) && n.parts.head?.any fun list =>
        list.parts.countP (·.label.hasRole fun _ => true) == 7) = true := by decide +kernel
  refine ⟨?_, by decide +kernel⟩
  cases htree : parse sevenPositional.text with
  | error fault => exact absurd (htree ▸ hknown) (by simp [Except.toOption])
  | ok tree =>
    obtain ⟨n, hn, htest⟩ : ∃ n ∈ tree.walk, (decide (IsFunction n) &&
        n.parts.head?.any fun list =>
          list.parts.countP (·.label.hasRole fun _ => true) == 7) = true := by
      simpa only [htree, Except.toOption, Option.any_some, List.any_eq_true] using hknown
    obtain ⟨hfunction, hseven⟩ := Bool.and_eq_true_iff.1 htest
    obtain ⟨isAsync, name, hlabel⟩ := of_decide_eq_true hfunction
    obtain ⟨l, hplain, hhead⟩ := exists_paramList_of_mem_walk htree hn hlabel
    refine ⟨tree, n, rfl, hn, ⟨isAsync, name, hlabel⟩, l, hplain, hhead, ?_⟩
    rw [hhead, Option.any_some, beq_iff_eq, ParamList.countP_parts hplain] at hseven
    exact hseven

end Checks.Python

end CodeAudit
