import CodeAudit.Proofs.Checks.NodeChecks
import CodeAudit.Proofs.Syntax.Nesting

/-!
# Branches and the bound on nesting

A file is reported for the nesting of its tree if that is above four. In the tree, each further
branch of a conditional stands below the one before it. So branches that stand side by side in the
source count as nested: a chain of branches is reported from the fifth one on, and a branch that is
added to a conditional changes the depth of the file unless the file has that depth elsewhere
(`branches_counted_as_nested`).
-/

namespace CodeAudit.Checks.Python

open Syntax Node

variable {f : SourceFile} {tree n : Node}

/-! ## Reports of nesting -/

/-- What is said of a file that nests too deep. -/
def nestingMessage (depth : Nat) : String :=
  s!"Maximum nesting depth is {depth}; keep it at or below 4."

/-- What is reported by the rule on nesting. -/
def nestingReports (f : SourceFile) : List Issue :=
  (check f).filter (·.ruleId == Catalogue.pythonNesting.id)

theorem nestingMessage_eq (depth : Nat) : nestingMessage depth =
    s!"Maximum nesting depth is {depth}; keep it at or below {maxNesting}." := by
  unfold nestingMessage
  simp only [String.append_assoc]
  rfl

theorem treeIssues_eq (h : parse f.text = .ok tree) : treeIssues f =
    tree.walk.flatMap (nodeIssues f) ++
      aboveLimit Catalogue.pythonNesting 4 nestingMessage f.path tree.nesting ++
      moduleIssues f tree := by
  rw [treeIssues, h, aboveLimit, nestingMessage_eq]
  rfl

/-- No check of single nodes is one of nesting. -/
theorem filter_nodeIssues_nesting :
    (nodeIssues f n).filter (·.ruleId == Catalogue.pythonNesting.id) = [] := by
  rw [List.filter_eq_nil_iff, NodeCheck.nodeIssues_eq]
  intro i hi hrule
  obtain ⟨c, _, hreport⟩ := List.mem_flatMap.1 hi
  have hid := NodeCheck.ruleId_of_report? (Option.mem_toList.1 hreport)
  rw [beq_iff_eq, hid] at hrule
  revert hrule
  cases c <;> decide

theorem filter_aboveLimit (depth : Nat) :
    (aboveLimit Catalogue.pythonNesting 4 nestingMessage f.path depth).filter
        (·.ruleId == Catalogue.pythonNesting.id) =
      aboveLimit Catalogue.pythonNesting 4 nestingMessage f.path depth := by
  rw [aboveLimit]
  split <;> rfl

/-- **What is reported of nesting is the nesting of the tree.** -/
theorem nestingReports_eq (h : parse f.text = .ok tree) : nestingReports f =
    aboveLimit Catalogue.pythonNesting 4 nestingMessage f.path tree.nesting := by
  have hid : ∀ r ∈ moduleRules, r.id ≠ Catalogue.pythonNesting.id := by decide
  calc nestingReports f
    _ = (treeIssues f).filter (·.ruleId == Catalogue.pythonNesting.id) :=
        parts.filter_eq Catalogue.pythonNesting rfl f
    _ = (tree.walk.flatMap (nodeIssues f) ++
          aboveLimit Catalogue.pythonNesting 4 nestingMessage f.path tree.nesting).filter
            (·.ruleId == Catalogue.pythonNesting.id) := by
        rw [treeIssues_eq h]
        exact filter_append_placed hid _ (placed_pythonModule f (by decide) tree) f.path
    _ = aboveLimit Catalogue.pythonNesting 4 nestingMessage f.path tree.nesting := by
        rw [List.filter_append, List.filter_flatMap, filter_aboveLimit,
          List.flatMap_eq_nil_iff.2 fun _ _ => filter_nodeIssues_nesting, List.nil_append]

/-! ## Branches -/

theorem nesting_module {span : Span} : (mk .module span [n]).nesting = n.nesting := by
  rw [nesting_eq, Node.parts, nestingAll_cons, nestingAll_nil, Nat.max_zero]
  exact Nat.zero_add _

/-- **Branches count as nested.** The nesting of a file is the greatest number of block statements
on a way down its tree, and what is reported, on a stack with room for the source. A file with one
conditional and further branches nests one level for each of them, and is not reported exactly if it
has no more than three. A branch that is added to a conditional never makes the nesting less, and
leaves it as it is exactly if the way to the conditional, the branch and what stands behind it is no
deeper than the file is already. -/
theorem branches_counted_as_nested (f : SourceFile) (tree : Node) (h : parse f.text = .ok tree) :
    IsGreatest (Set.image tree.depthAt {way | way ∈ tree.places}) tree.nesting ∧
    (∀ stack, HasRoom stack f tree → ∃ issues,
      Analyser.python.checkWithin stack f = .ok issues ∧
      issues.filter (·.ruleId == Catalogue.pythonNesting.id) =
        aboveLimit Catalogue.pythonNesting 4 nestingMessage f.path tree.nesting) ∧
    (∀ length chain span, tree = mk .module span [chain] → IsChain length chain →
      tree.nesting = length + 1 ∧ (nestingReports f = [] ↔ length ≤ 3)) ∧
    ∀ (way : List Nat) (n : Node) (k : Nat) (test tree' : Node), tree.at? way = some n →
      n.label = .conditional → test.IsExpression →
      tree'.alike (tree.modify (addBranch k test) way) = true →
      tree.nesting ≤ tree'.nesting ∧ (tree'.nesting = tree.nesting ↔
        tree.depthAt way + 1 + nestingAll (n.parts.drop k) ≤ tree.nesting) := by
  refine ⟨isGreatest_nesting tree, fun stack hroom => ?_, fun length chain span htree hchain => ?_,
    fun way n k test tree' hat hlabel htest halike => ?_⟩
  · exact ⟨check f, (checkWithin_eq_ok_iff h).2 ⟨hroom, rfl⟩, nestingReports_eq h⟩
  · have hnesting : tree.nesting = length + 1 := by
      rw [htree, nesting_module, nesting_of_isChain hchain]
    refine ⟨hnesting, ?_⟩
    rw [nestingReports_eq h, aboveLimit_eq_nil_iff, hnesting]
    omega
  · rw [nesting_modify_addBranch hat hlabel htest halike]
    omega

/-- A conditional with one further branch. -/
def twoBranches : SourceFile := .of ⟨.relative, ["a.py"]⟩ "if a:pass\nelif b:pass".toList

/-- Its tree. -/
def twoBranchesTree : Node :=
  .mk .module ⟨0, 0, 0, 0, 0⟩ [.mk .conditional ⟨1, 0, 2, 11, 0⟩
    [.mk (.name "a") ⟨1, 3, 1, 4, 0⟩ [], .mk .pass ⟨1, 5, 1, 9, 0⟩ [],
      .mk .conditional ⟨2, 0, 2, 11, 0⟩
        [.mk (.name "b") ⟨2, 5, 2, 6, 0⟩ [], .mk .pass ⟨2, 7, 2, 11, 0⟩ []]]]

theorem isExpression_name (id : String) (span : Span) : (mk (.name id) span []).IsExpression := by
  intro way m hat
  cases way with
  | nil => exact Option.some.inj hat ▸ rfl
  | cons i way => cases hat

theorem isChain_twoBranches : ∃ chain, twoBranchesTree = mk .module ⟨0, 0, 0, 0, 0⟩ [chain] ∧
    IsChain 1 chain :=
  ⟨_, rfl, .more (isExpression_name _ _) ⟨rfl, rfl⟩ (.single (isExpression_name _ _) ⟨rfl, rfl⟩)⟩

/-- It nests two levels, and three with another branch behind the first. -/
theorem twoBranches_counted_as_nested :
    parse twoBranches.text = .ok twoBranchesTree ∧
      (∃ chain, twoBranchesTree = mk .module ⟨0, 0, 0, 0, 0⟩ [chain] ∧ IsChain 1 chain) ∧
      twoBranchesTree.nesting = 2 ∧ nestingReports twoBranches = [] ∧
      ∃ tree', (parse "if a:pass\nelif c:pass\nelif b:pass".toList).toOption = some tree' ∧
        tree'.nesting ≠ twoBranchesTree.nesting := by
  have hparse : parse twoBranches.text = .ok twoBranchesTree := by
    have hoption : (parse twoBranches.text).toOption = some twoBranchesTree := by decide +kernel
    cases htree : parse twoBranches.text with
    | error fault => simp [htree, Except.toOption] at hoption
    | ok tree => simpa [htree, Except.toOption] using hoption
  obtain ⟨-, -, hchains, hadded⟩ := branches_counted_as_nested twoBranches twoBranchesTree hparse
  obtain ⟨chain, hchain, hlength⟩ := isChain_twoBranches
  obtain ⟨hnesting, hreports⟩ := hchains 1 chain _ hchain hlength
  have hmore : (parse "if a:pass\nelif c:pass\nelif b:pass".toList).toOption.any (·.alike
      (twoBranchesTree.modify (addBranch 2 (mk (.name "c") default [])) [0])) = true := by
    decide +kernel
  obtain ⟨tree', htree', halike⟩ := (Option.any_eq_true _ _).1 hmore
  refine ⟨hparse, ⟨chain, hchain, hlength⟩, hnesting, hreports.2 (by decide), tree', htree', ?_⟩
  rw [Ne, (hadded [0] _ 2 _ tree' rfl rfl (isExpression_name "c" _) halike).2]
  decide

/-- A conditional with four further branches. -/
def fiveBranches : SourceFile :=
  .of ⟨.relative, ["a.py"]⟩ "if a:pass\nelif b:pass\nelif c:pass\nelif d:pass\nelif e:pass".toList

/-- **Five branches side by side are reported as nested.** -/
theorem fiveBranches_reported_as_nested :
    (parse fiveBranches.text).toOption.map (·.nesting) = some 5 ∧
      nestingReports fiveBranches = [Catalogue.pythonNesting.issue "a.py" 1 1
        "Maximum nesting depth is 5; keep it at or below 4."] := by
  decide +kernel

end CodeAudit.Checks.Python
