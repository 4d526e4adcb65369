import CodeAudit.Proofs.Syntax.Statements

/-!
# The nodes of a tree

The grammar is tied together with less fuel for each form that another refers to, so that every form
keeps to a text by induction on the fuel; the expressions of formatted texts are read by the grammar
itself, with less fuel too. Hence every node of a parsed source that has a place starts at exactly
one character of the source, and its line and column are counted in line feeds and bytes
(`exists_standsAt_of_mem_walk`). Every function begins with its parameters
(`exists_paramList_of_mem_walk`).
-/

namespace CodeAudit.Syntax

open Text Parse

variable {text : List Char} {g : Grammar} {embedded : Cursor → Except Fault Node} {n tree : Node}

theorem yields_single {p : Parse Node} (hp : Yields text p) : Yields text (single p) :=
  .bind hp fun _ h => .pure ⟨h, trivial⟩

/-- Every form keeps to a text if the forms it refers to do. -/
theorem yields_formOf (hg : g.Sound text) (hembedded : Embeds text embedded) :
    ∀ r, Yields text (formOf g embedded r)
  | .statements => yields_statements hg
  | .statement => yields_statement hg
  | .simpleStatements => yields_simpleStatements hg
  | .simpleStatement => yields_single (yields_simpleStatement hg)
  | .compoundStatement => yields_single (yields_compoundStatement hg)
  | .block => yields_block hg
  | .elifStatement => yields_single (yields_branch hg)
  | .elseBlock => yields_elseBlock hg
  | .expressions => yields_single (yields_tupleOf hg.one)
  | .expression => yields_single (yields_expression hg)
  | .plainExpression => yields_single (yields_plainExpression hg).withoutDiagnosing
  | .disjunction => yields_single (yields_wordChain hg.one)
  | .conjunction => yields_single (yields_wordChain hg.one)
  | .inversion => yields_single (yields_inversion hg)
  | .comparison => yields_single (yields_comparison hg)
  | .bitwiseOr => yields_single (yields_operatorChain hg.one)
  | .bitwiseXor => yields_single (yields_operatorChain hg.one)
  | .bitwiseAnd => yields_single (yields_operatorChain hg.one)
  | .shift => yields_single (yields_operatorChain hg.one)
  | .sum => yields_single (yields_operatorChain hg.one)
  | .term => yields_single (yields_operatorChain hg.one)
  | .factor => yields_single (yields_factor hg)
  | .power => yields_single (yields_power hg)
  | .awaitPrimary => yields_single (yields_awaitPrimary hg)
  | .primary => yields_single (yields_primary hg)
  | .atom => yields_single (yields_atom hg)
  | .lambda => yields_single (yields_lambda hg)
  | .starExpressions => yields_single (yields_tupleOf hg.one)
  | .starExpression => yields_single (yields_starExpression hg)
  | .starNamedExpressions => yields_starNamedExpressions hg
  | .starNamedExpression => yields_single (yields_starNamedExpression hg)
  | .namedExpression => yields_single (yields_namedExpression hg)
  | .assignmentExpression => yields_single (yields_assignmentExpression hg)
  | .yieldExpression => yields_single (yields_yieldExpression hg)
  | .slices => yields_single (yields_slices hg)
  | .slice => yields_single (yields_slice hg)
  | .arguments => yields_arguments hg
  | .args => yields_args hg
  | .forIfClauses => yields_forIfClauses hg
  | .strings => yields_single (yields_strings hembedded)
  | .list => yields_single (yields_list hg)
  | .tuple => yields_single (yields_tuple hg)
  | .generator => yields_single (yields_generator hg)
  | .starTargets => yields_single (yields_starTargets hg)
  | .starTarget => yields_single (yields_starTarget hg)
  | .targetWithStarAtom => yields_single (yields_targetWithStarAtom hg)
  | .starAtom => yields_single (yields_starAtom hg)
  | .singleTarget => yields_single (yields_singleTarget hg)
  | .singleSubscriptAttributeTarget => yields_single (yields_attributeOrSubscript hg)
  | .targetPrimary => yields_single (yields_targetPrimary hg)
  | .delTargets => yields_delTargets hg
  | .delTarget => yields_single (yields_delTarget hg)
  | .patterns => yields_single (yields_patterns hg)
  | .pattern => yields_single (yields_pattern hg)
  | .orPattern => yields_single (yields_orPattern hg)
  | .closedPattern => yields_single (yields_closedPattern hg)
  | .starPattern => yields_single yields_starPattern
  | .attribute => yields_single yields_attributePath
  | .mistakenName => yields_single (yields_mistakenName hg)
  | .mistakenHint => yields_single (yields_mistakenHint hg)

/-- What is remembered was found in the text. -/
theorem yields_remembered {r : Rule} {p : Parse (List Node)} (hp : Yields text p) :
    Yields text (remembered r p) := by
  intro s hs
  unfold remembered
  dsimp only
  split
  · exact hs
  next nodes stop hknown => exact ⟨hs.memo _ _ _ hknown, hs.at stop⟩
  · have hsound := hp s hs
    generalize p s = reply at hsound ⊢
    cases reply with
    | found nodes s' =>
      refine ⟨hsound.1, hsound.2.reading, hsound.2.tokens, fun key known stop h => ?_⟩
      rw [Std.TreeMap.getElem?_insert] at h
      split at h
      · cases h
        exact hsound.1
      · exact hsound.2.memo key known stop h
    | missing s' =>
      refine ⟨hsound.reading, hsound.tokens, fun key known stop h => ?_⟩
      rw [Std.TreeMap.getElem?_insert] at h
      split at h
      · cases h
      · exact hsound.memo key known stop h
    | faulty e b s' => trivial

/-- Only a first reading gives a result. -/
theorem within_twoReadings {p : Parse Node} {source : Tokens} (hp : Yields text p)
    (hsource : ∀ t ∈ source.tokens, t.Placed text) (h : twoReadings p source = .ok n) :
    Within text n := by
  have hsound := hp ⟨source, 0, 0, false, {}⟩ ⟨rfl, hsource, by simp⟩
  unfold twoReadings at h
  dsimp only at h
  generalize p ⟨source, 0, 0, false, {}⟩ = reply at h hsound
  cases reply with
  | found m s =>
    cases h
    exact hsound.1
  | faulty e b s => cases h
  | missing s =>
    dsimp only at h
    split at h <;> cases h

/-- **The grammar keeps to a text.** -/
theorem sound_grammar {fuel : Nat} : (grammar fuel).Sound text := by
  induction fuel with
  | zero => exact fun _ => .fail
  | succ fuel ih =>
    -- The expressions of formatted texts are read by the same smaller grammar.
    refine fun r => yields_remembered (yields_formOf ih (fun c n hc h => ?_) r)
    split at h
    next m hm =>
      cases h
      exact within_twoReadings ih.one (placed_lexFrom hc) hm
    next => cases h

theorem within_parse (h : parse text = .ok tree) : Within text tree := by
  unfold parse at h
  split at h
  · cases h
  · exact within_twoReadings (yields_moduleBody sound_grammar) placed_lex h

/-! ## All nodes -/

theorem lies_levels {depth : Nat} {nodes : List Node} (hnodes : ∀ m ∈ nodes, m.Lies text)
    (h : n ∈ Node.levels depth nodes) : n.Lies text := by
  induction depth generalizing nodes with
  | zero => cases h
  | succ depth ih =>
    rcases List.mem_append.1 h with h | h
    · exact hnodes n h
    · refine ih (fun m hm => ?_) h
      obtain ⟨parent, hparent, hm⟩ := List.mem_flatMap.1 hm
      cases hnodes parent hparent with
      | mk _ hparts _ => exact hparts m hm

/-- The nodes of a parsed source lie in it. -/
theorem lies_of_mem_walk (h : parse text = .ok tree) (hn : n ∈ tree.walk) : n.Lies text :=
  lies_levels (List.forall_mem_singleton.2 (within_parse h).1) hn

/-- **A function of a parsed source begins with its parameters.** -/
theorem exists_paramList_of_mem_walk {isAsync : Bool} {name : String} (h : parse text = .ok tree)
    (hn : n ∈ tree.walk) (hlabel : n.label = .functionDef isAsync name) :
    ∃ l : ParamList, l.Plain ∧ n.parts.head? = some l.node := by
  cases lies_of_mem_walk h hn with
  | mk _ _ hshape =>
    obtain rfl := hlabel
    exact hshape

/-- **A node of a parsed source starts at one character of it**: the line and column of the node
are those of that character, counted in line feeds and bytes, and of no other. -/
theorem exists_standsAt_of_mem_walk (h : parse text = .ok tree) (hn : n ∈ tree.walk)
    (hplaced : n.label.isPlaced = true) :
    ∃ k, ∀ j, StandsAt text j n.span.line n.span.col ↔ j = k := by
  cases lies_of_mem_walk h hn with
  | mk hspan _ _ =>
    obtain ⟨k, hk⟩ := hspan hplaced
    exact ⟨k, fun j => ⟨fun hj => hj.unique hk, fun hj => hj ▸ hk⟩⟩

end CodeAudit.Syntax
