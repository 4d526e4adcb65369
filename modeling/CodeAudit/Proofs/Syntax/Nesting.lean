import CodeAudit.Proofs.Syntax.Ways
import Mathlib.Order.Bounds.Basic

/-!
# Nesting

The nesting of a tree is the greatest number of block statements on a way down the tree
(`isGreatest_nesting`). It does not depend on where the nodes stand in the source
(`nesting_eq_of_alike`). A further branch of a conditional is a conditional among its parts, so that
a chain of branches nests as deep as it is long (`nesting_of_isChain`), and a branch that is added
to a conditional carries what stood behind it one level down (`nesting_addBranch`).
-/

namespace CodeAudit.Syntax.Node

variable {n p : Node} {nodes : List Node} {way : List Nat} {i k x : Nat}

/-! ## The measure -/

/-- The deepest nesting of several trees. -/
def nestingAll (nodes : List Node) : Nat := nestingFrom.deepest 0 0 nodes

-- The nesting of a tree is that of its parts, so nodes and lists of nodes go together.
mutual

theorem nestingFrom_eq_add : (n : Node) → (depth : Nat) →
    nestingFrom depth n = depth + nestingFrom 0 n
  | mk label span parts, depth => by
    have hdeepest := fun here => deepest_eq_max parts (Nat.le_refl here)
    rw [nestingFrom, nestingFrom, hdeepest (if label.nests then depth + 1 else depth),
      hdeepest (if label.nests then 0 + 1 else 0)]
    split <;> omega

theorem deepest_eq_max : (nodes : List Node) → {here best : Nat} → here ≤ best →
    nestingFrom.deepest here best nodes = max best (here + nestingFrom.deepest 0 0 nodes)
  | [], here, best, h => by
    rw [nestingFrom.deepest, nestingFrom.deepest]
    omega
  | n :: rest, here, best, h => by
    rw [nestingFrom.deepest, nestingFrom.deepest, nestingFrom_eq_add n here,
      deepest_eq_max rest (Nat.le_trans h (Nat.le_max_left _ _)),
      deepest_eq_max rest (Nat.zero_le (max 0 (nestingFrom 0 n)))]
    omega

end

@[simp] theorem nestingAll_nil : nestingAll [] = 0 := rfl

@[simp] theorem nestingAll_cons : nestingAll (n :: nodes) = max n.nesting (nestingAll nodes) := by
  rw [nestingAll, nestingFrom.deepest, deepest_eq_max nodes (Nat.zero_le _), nestingAll, nesting]
  omega

theorem nestingAll_append {rest : List Node} :
    nestingAll (nodes ++ rest) = max (nestingAll nodes) (nestingAll rest) := by
  induction nodes with
  | nil => simp
  | cons n nodes ih =>
    rw [List.cons_append, nestingAll_cons, ih, nestingAll_cons]
    omega

/-- A node nests as deep as its parts, and one level deeper if it is a block statement. -/
theorem nesting_eq (n : Node) : n.nesting = n.label.nests.toNat + nestingAll n.parts := by
  cases n with
  | mk label span parts =>
    have hhere : (if label.nests then 0 + 1 else 0) = label.nests.toNat := by
      cases label.nests <;> rfl
    rw [nesting, nestingFrom, deepest_eq_max parts (Nat.le_refl _), hhere, nestingAll, Node.label,
      Node.parts]
    omega

theorem nesting_le_nestingAll (h : p ∈ nodes) : p.nesting ≤ nestingAll nodes := by
  obtain ⟨before, after, rfl⟩ := List.append_of_mem h
  rw [nestingAll_append, nestingAll_cons]
  omega

theorem exists_nesting_eq_nestingAll (h : nestingAll nodes ≠ 0) :
    ∃ p ∈ nodes, p.nesting = nestingAll nodes := by
  induction nodes with
  | nil => exact absurd nestingAll_nil h
  | cons n nodes ih =>
    rw [nestingAll_cons] at h ⊢
    rcases Nat.le_total (nestingAll nodes) n.nesting with hle | hle
    · exact ⟨n, List.mem_cons_self, (Nat.max_eq_left hle).symm⟩
    · rw [Nat.max_eq_right hle] at h ⊢
      obtain ⟨p, hp, heq⟩ := ih h
      exact ⟨p, List.mem_cons_of_mem n hp, heq⟩

/-! ## Ways -/

/-- The number of block statements on a way, its end included. -/
def depthAt (n : Node) : List Nat → Nat
  | [] => n.label.nests.toNat
  | i :: way => n.label.nests.toNat + n.parts[i]?.elim 0 (depthAt · way)

theorem depthAt_cons (h : n.parts[i]? = some p) :
    n.depthAt (i :: way) = n.label.nests.toNat + p.depthAt way := by
  rw [depthAt, h, Option.elim_some]

theorem depthAt_le_nesting (h : (n.at? way).isSome = true) : n.depthAt way ≤ n.nesting := by
  induction way generalizing n with
  | nil =>
    rw [nesting_eq, depthAt]
    omega
  | cons i way ih =>
    obtain ⟨m, hm⟩ := Option.isSome_iff_exists.1 h
    obtain ⟨p, hp, hat⟩ := Option.bind_eq_some_iff.1 hm
    have hway := ih (n := p) (by rw [hat]; rfl)
    have hpart := nesting_le_nestingAll (List.mem_of_getElem? hp)
    rw [nesting_eq, depthAt_cons hp]
    omega

theorem exists_depthAt_eq_nesting (n : Node) :
    ∃ way, (n.at? way).isSome = true ∧ n.depthAt way = n.nesting := by
  by_cases hzero : nestingAll n.parts = 0
  · exact ⟨[], rfl, by rw [nesting_eq, hzero]; rfl⟩
  · obtain ⟨p, hp, hnesting⟩ := exists_nesting_eq_nestingAll hzero
    obtain ⟨i, hi⟩ := List.mem_iff_getElem?.1 hp
    have hheight := height_lt_of_mem_parts hp
    obtain ⟨way, hat, hdepth⟩ := exists_depthAt_eq_nesting p
    refine ⟨i :: way, ?_, ?_⟩
    · rw [at?_cons, hi, Option.bind_some, hat]
    · rw [depthAt_cons hi, hdepth, hnesting, nesting_eq]
termination_by n.height

/-- **The nesting of a tree is the greatest number of block statements on a way.** -/
theorem isGreatest_nesting (tree : Node) :
    IsGreatest (Set.image tree.depthAt {way | way ∈ tree.places}) tree.nesting := by
  constructor
  · obtain ⟨way, hat, hdepth⟩ := exists_depthAt_eq_nesting tree
    exact ⟨way, mem_places_iff.2 hat, hdepth⟩
  · rintro _ ⟨way, hway, rfl⟩
    exact depthAt_le_nesting (mem_places_iff.1 hway)

/-! ## Trees that stand elsewhere -/

mutual

/-- Whether two trees are the same. -/
def decEq : (a b : Node) → Decidable (a = b)
  | mk label span parts, mk label' span' parts' =>
    have := decEqAll parts parts'
    decidable_of_iff (label = label' ∧ span = span' ∧ parts = parts') (by rw [mk.injEq])

/-- Whether two lists of trees are the same. -/
def decEqAll : (a b : List Node) → Decidable (a = b)
  | [], [] => isTrue rfl
  | n :: rest, n' :: rest' =>
    have := decEq n n'
    have := decEqAll rest rest'
    decidable_of_iff (n = n' ∧ rest = rest') (by rw [List.cons.injEq])
  | [], _ :: _ => isFalse nofun
  | _ :: _, [] => isFalse nofun

end

instance : DecidableEq Node := decEq

/-- Whether two trees differ at most in where their nodes stand. -/
def alike : Node → Node → Bool
  | mk label _ parts, mk label' _ parts' => label == label' && alikeAll parts parts'
where
  /-- The same for lists of trees. -/
  alikeAll : List Node → List Node → Bool
    | [], [] => true
    | n :: rest, n' :: rest' => alike n n' && alikeAll rest rest'
    | _, _ => false

mutual

theorem nesting_eq_of_alike : (n n' : Node) → n.alike n' = true → n.nesting = n'.nesting
  | mk label span parts, mk label' span' parts', h => by
    rw [alike, Bool.and_eq_true, beq_iff_eq] at h
    rw [nesting_eq, nesting_eq, Node.label, Node.label, Node.parts, Node.parts, h.1,
      nestingAll_eq_of_alike parts parts' h.2]

theorem nestingAll_eq_of_alike : (nodes nodes' : List Node) → alike.alikeAll nodes nodes' = true →
    nestingAll nodes = nestingAll nodes'
  | [], [], _ => rfl
  | n :: rest, n' :: rest', h => by
    rw [alike.alikeAll, Bool.and_eq_true] at h
    rw [nestingAll_cons, nestingAll_cons, nesting_eq_of_alike n n' h.1,
      nestingAll_eq_of_alike rest rest' h.2]
  | [], _ :: _, h => by cases h
  | _ :: _, [], h => by cases h

end

/-! ## Branches -/

/-- A tree without statements. -/
def IsExpression (n : Node) : Prop :=
  ∀ way m, n.at? way = some m → m.label.isStatement = false

/-- The statement that does nothing. -/
def IsPass (n : Node) : Prop := n.label = .pass ∧ n.parts = []

/-- **A conditional with a number of further branches**, where every body is a single `pass`. -/
inductive IsChain : Nat → Node → Prop
  | single {test pass : Node} {span : Span} (htest : test.IsExpression) (hpass : pass.IsPass) :
      IsChain 0 (mk .conditional span [test, pass])
  | more {length : Nat} {test pass next : Node} {span : Span} (htest : test.IsExpression)
      (hpass : pass.IsPass) (hnext : IsChain length next) :
      IsChain (length + 1) (mk .conditional span [test, pass, next])

/-- Block statements are statements. -/
theorem isStatement_of_nests {label : Label} (h : label.nests = true) :
    label.isStatement = true := by
  unfold Label.nests at h
  split at h <;> trivial

theorem IsExpression.nests_eq_false (h : n.IsExpression) : n.label.nests = false := by
  have hlabel := h [] n rfl
  cases hnests : n.label.nests with
  | false => rfl
  | true => rw [isStatement_of_nests hnests] at hlabel; cases hlabel

theorem IsExpression.part (h : n.IsExpression) (hp : n.parts[i]? = some p) : p.IsExpression := by
  intro way m hat
  exact h (i :: way) m (by rw [at?_cons, hp, Option.bind_some, hat])

theorem IsExpression.depthAt_eq_zero (h : n.IsExpression) (hat : (n.at? way).isSome = true) :
    n.depthAt way = 0 := by
  induction way generalizing n with
  | nil => rw [depthAt, h.nests_eq_false]; rfl
  | cons i way ih =>
    obtain ⟨m, hm⟩ := Option.isSome_iff_exists.1 hat
    obtain ⟨p, hp, hway⟩ := Option.bind_eq_some_iff.1 hm
    rw [depthAt_cons hp, h.nests_eq_false, ih (h.part hp) (by rw [hway]; rfl)]
    rfl

@[simp] theorem IsExpression.nesting_eq_zero (h : n.IsExpression) : n.nesting = 0 := by
  obtain ⟨way, hat, hdepth⟩ := exists_depthAt_eq_nesting n
  rw [← hdepth, h.depthAt_eq_zero hat]

@[simp] theorem IsPass.nesting_eq_zero (h : n.IsPass) : n.nesting = 0 := by
  rw [nesting_eq, h.1, h.2]
  rfl

theorem nesting_conditional {span : Span} {parts : List Node} :
    (mk .conditional span parts).nesting = nestingAll parts + 1 := by
  rw [nesting_eq, Nat.add_comm]
  rfl

/-- **A chain of branches nests as deep as it is long.** -/
theorem nesting_of_isChain {length : Nat} (h : IsChain length n) : n.nesting = length + 1 := by
  induction h with
  | single htest hpass => simp [nesting_conditional, htest, hpass]
  | more htest hpass hnext ih => simp [nesting_conditional, htest, hpass, ih]

/-! ## A further branch -/

/-- A tree with another node at the end of a way. -/
def modify (change : Node → Node) : List Nat → Node → Node
  | [], n => change n
  | i :: way, mk label span parts => mk label span (parts.modify i (modify change way))

/-- **A conditional with a further branch behind its first parts**, which has a test and does
nothing. What stood behind the place is left to the new branch. -/
def addBranch (k : Nat) (test : Node) (n : Node) : Node :=
  mk n.label n.span (n.parts.take k ++
    [mk .conditional n.span (test :: mk .pass n.span [] :: n.parts.drop k)])

theorem nestingAll_modify {change : Node → Node} (hp : nodes[i]? = some p)
    (h : (change p).nesting = max p.nesting x) :
    nestingAll (nodes.modify i change) = max (nestingAll nodes) x := by
  induction nodes generalizing i with
  | nil => cases hp
  | cons n nodes ih =>
    cases i with
    | zero =>
      obtain rfl : n = p := Option.some.inj hp
      rw [List.modify_zero_cons, nestingAll_cons, h, nestingAll_cons]
      omega
    | succ i =>
      rw [List.modify_succ_cons, nestingAll_cons, ih hp, nestingAll_cons]
      omega

/-- A change at the end of a way that reaches a depth below it does so below the whole way. -/
theorem nesting_modify {change : Node → Node} (hat : p.at? way = some n)
    (h : (change n).nesting = max n.nesting (n.label.nests.toNat + x)) :
    (p.modify change way).nesting = max p.nesting (p.depthAt way + x) := by
  induction way generalizing p with
  | nil =>
    obtain rfl : p = n := Option.some.inj hat
    exact h
  | cons i way ih =>
    obtain ⟨q, hq, hway⟩ := Option.bind_eq_some_iff.1 hat
    rw [depthAt_cons hq]
    cases p with
    | mk label span parts =>
      rw [modify, nesting_eq, nesting_eq (mk label span parts)]
      have hparts := nestingAll_modify hq (ih hway)
      simp only [Node.label, Node.parts] at hparts ⊢
      omega

theorem nesting_addBranch {test : Node} (hlabel : n.label = .conditional)
    (htest : test.IsExpression) : (addBranch k test n).nesting =
      max n.nesting (n.label.nests.toNat + (1 + nestingAll (n.parts.drop k))) := by
  have hparts : nestingAll n.parts =
      max (nestingAll (n.parts.take k)) (nestingAll (n.parts.drop k)) := by
    rw [← nestingAll_append, List.take_append_drop]
  have hnests : n.label.nests.toNat = 1 := by rw [hlabel]; rfl
  have hpass : (mk .pass n.span []).IsPass := ⟨rfl, rfl⟩
  rw [nesting_eq n, hparts, addBranch, nesting_eq, Node.label, Node.parts, hnests,
    nestingAll_append, nestingAll_cons, nestingAll_nil, nesting_conditional, nestingAll_cons,
    nestingAll_cons, htest.nesting_eq_zero, hpass.nesting_eq_zero]
  omega

/-- **A further branch nests one level below its conditional**, together with what it is put in
front of. -/
theorem nesting_modify_addBranch {tree tree' test : Node} (hat : tree.at? way = some n)
    (hlabel : n.label = .conditional) (htest : test.IsExpression)
    (halike : tree'.alike (tree.modify (addBranch k test) way) = true) :
    tree'.nesting = max tree.nesting (tree.depthAt way + 1 + nestingAll (n.parts.drop k)) := by
  rw [nesting_eq_of_alike _ _ halike, nesting_modify hat (nesting_addBranch hlabel htest),
    Nat.add_assoc]

end CodeAudit.Syntax.Node
