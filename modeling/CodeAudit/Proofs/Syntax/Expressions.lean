import CodeAudit.Proofs.Syntax.Parsers

/-!
# Expressions keep to a text

Parameter lists, expressions and arguments, form by form: each is put together from parsers that
keep to a text, and the nodes it builds start at a token it has taken or looked at.
-/

namespace CodeAudit.Syntax

open Text Parse

variable {text : List Char} {g : Grammar} {style : ParamStyle} {t : Token} {p : Parse Node}

/-! ## Parameters -/

instance : Located Param :=
  ⟨fun text p => Within text p.span ∧ Within text p.annotation ∧ Within text p.default⟩

instance : Located ParamList :=
  ⟨fun text l => Within text l.positionalOnly ∧ Within text l.plain ∧ Within text l.variadic ∧
    Within text l.keywordOnly ∧ Within text l.keywordVariadic⟩

theorem lies_param {role : ParamRole} {p : Param} (h : Within text p) :
    (p.node role).Lies text :=
  .mk (fun _ => h.1) (fun n hn => (within_list.1 (within_toList h.2.1) n hn).1) trivial

theorem lies_paramNodes {role : ParamRole} {ps : List Param} (h : Within text ps) :
    ∀ n ∈ ps.map (·.node role), n.Lies text :=
  List.forall_mem_map.2 fun p hp => lies_param (within_list.1 h p hp)

theorem lies_optionalParam {role : ParamRole} {p : Option Param} (h : Within text p) :
    ∀ n ∈ (p.map (·.node role)).toList, n.Lies text := by
  cases p with
  | none => simp
  | some p => simpa using lies_param h

theorem within_defaults {ps : List Param} (h : Within text ps) :
    Within text (ps.filterMap (·.default)) := within_filterMap h fun _ hp => hp.2.2

theorem lies_defaults {ps : List Param} (h : Within text ps) :
    ∀ n ∈ ps.filterMap (·.default), n.Lies text :=
  fun n hn => (within_list.1 (within_defaults h) n hn).1

/-- The node of a parameter list has no place of its own. -/
theorem within_paramList {l : ParamList} (h : Within text l) : Within text l.node := by
  obtain ⟨hpositional, hplain, hvariadic, hkeyword, hkeywordVariadic⟩ := h
  refine ⟨.mk (fun hplaced => nomatch hplaced) ?_ trivial, rfl⟩
  simp only [List.forall_mem_append]
  exact ⟨⟨⟨⟨⟨⟨lies_paramNodes hpositional, lies_paramNodes hplain⟩, lies_optionalParam hvariadic⟩,
    lies_paramNodes hkeyword⟩, lies_defaults hkeyword⟩, lies_optionalParam hkeywordVariadic⟩,
    lies_defaults (within_append hpositional hplain)⟩

/-- The defaults of a parameter list are expressions. -/
theorem plain_paramList {l : ParamList} (h : Within text l) : l.Plain := by
  obtain ⟨hpositional, hplain, -, hkeyword, -⟩ := h
  have hall := within_append (within_append hpositional hplain) hkeyword
  intro p hp d hd
  have hdefault := (within_list.1 hall p hp).2.2
  rw [Option.mem_def.1 hd] at hdefault
  exact hdefault.2

/-- What is found is the node of a parameter list. -/
def IsParamList (text : List Char) (n : Node) : Prop :=
  Within text n ∧ ∃ l : ParamList, l.Plain ∧ n = l.node

/-- A function begins with its parameters. -/
theorem yields_buildFunction {t : Token} {isAsync : Bool} {name : String} {params : Node}
    {rest : List Node} (ht : Within text t) (hparams : IsParamList text params)
    (hrest : Within text rest) :
    Yields text (build t (.functionDef isAsync name) (params :: rest)) := by
  obtain ⟨hnode, l, hplain, heq⟩ := hparams
  have hparts : Within text (params :: rest) := ⟨hnode, hrest⟩
  refine .bind (.spanFrom ht) fun _ hspan => .pure ⟨.mk (fun _ => hspan) ?_ ?_, rfl⟩
  · exact fun n hn => (within_list.1 hparts n hn).1
  · exact ⟨l, hplain, congrArg some heq⟩

theorem yields_paramEnd : Yields text (paramEnd style) :=
  .bind Yields.opToken.optional fun
    | some _, _ => .pure trivial
    | none, _ => .ahead .opToken

theorem yields_paramSlash : Yields text (paramSlash style) := .op fun _ _ => yields_paramEnd

section

variable (hg : g.Sound text)
include hg

theorem yields_param : Yields text (param g style) := by
  refine .identifier fun t ht => ?_
  have hspan : ∀ annotation : Option Node, Within text annotation →
      Yields text (do return Param.mk t (← spanFrom t) annotation none) := fun _ ha =>
    .bind (.spanFrom ht) fun _ hs => .pure ⟨hs, ha, trivial⟩
  exact .ite (.bind (.optional (.op fun _ _ => hg.one)) hspan) (.bind (.pure trivial) hspan)

theorem yields_paramWithStarHint : Yields text (paramWithStarHint g) :=
  .identifier fun _ ht => .op fun _ _ => .bind hg.one fun _ ha =>
    .bind (.spanFrom ht) fun _ hs => .pure ⟨hs, ha, trivial⟩

theorem yields_paramDefault : Yields text (paramDefault g) :=
  .orElse (.op fun _ _ => hg.one) .diagnosing

theorem yields_paramNoDefault : Yields text (paramNoDefault g style) :=
  .bind (yields_param hg) fun _ hp => .bind yields_paramEnd fun _ _ => .pure hp

theorem yields_paramNoDefaultStar : Yields text (paramNoDefaultStar g style) :=
  .ite (.bind (yields_paramWithStarHint hg) fun _ hp =>
    .bind yields_paramEnd fun _ _ => .pure hp) .fail

theorem yields_paramWithDefault : Yields text (paramWithDefault g style) :=
  .bind (yields_param hg) fun _ hp => .bind (yields_paramDefault hg) fun _ hd =>
    .bind yields_paramEnd fun _ _ => .pure ⟨hp.1, hp.2.1, hd⟩

theorem yields_paramMaybeDefault : Yields text (paramMaybeDefault g style) :=
  .bind (yields_param hg) fun _ hp => .bind (yields_paramDefault hg).optional fun _ hd =>
    .bind yields_paramEnd fun _ _ => .pure ⟨hp.1, hp.2.1, hd⟩

theorem yields_slashNoDefault : Yields text (slashNoDefault g style) :=
  .bind (yields_paramNoDefault hg).some1 fun _ hps => .bind yields_paramSlash fun _ _ => .pure hps

theorem yields_slashWithDefault : Yields text (slashWithDefault g style) :=
  .bind (yields_paramNoDefault hg).many fun _ hps =>
    .bind (yields_paramWithDefault hg).some1 fun _ hds =>
      .bind yields_paramSlash fun _ _ => .pure (within_append hps hds)

theorem yields_keywordVariadicParam : Yields text (keywordVariadicParam g style) :=
  .orElse .diagnosing (.op fun _ _ => yields_paramNoDefault hg)

theorem yields_starParams : Yields text (starParams g style) := by
  have hrest : ∀ p : Param, Within text p → Yields text (starParams.rest g style (some p)) :=
    fun p hp => .bind (yields_paramMaybeDefault hg).many fun _ hks =>
      .bind (yields_keywordVariadicParam hg).optional fun _ hkw =>
        .pure ⟨trivial, trivial, hp, hks, hkw⟩
  refine .orElse .diagnosing (.orElse ?_ (.orElse ?_ (.orElse ?_ ?_)))
  · exact .op fun _ _ => .bind (yields_paramNoDefault hg) hrest
  · exact .op fun _ _ => .bind (yields_paramNoDefaultStar hg) hrest
  · exact .op fun _ _ => .op fun _ _ => .bind (yields_paramMaybeDefault hg).some1 fun _ hks =>
      .bind (yields_keywordVariadicParam hg).optional fun _ hkw =>
        .pure ⟨trivial, trivial, trivial, hks, hkw⟩
  · exact .bind (yields_keywordVariadicParam hg) fun _ hkw =>
      .pure ⟨trivial, trivial, trivial, trivial, hkw⟩

theorem yields_parameterList : Yields text (parameterList g style) := by
  have hending : ∀ ps qs : List Param, Within text ps → Within text qs →
      Yields text (parameterList.ending g style ps qs) := fun ps qs hps hqs =>
    .bind (yields_starParams hg).optional fun
      | some _, hl => .pure ⟨hps, hqs, hl.2.2⟩
      | none, _ => .pure ⟨hps, hqs, trivial, trivial, trivial⟩
  refine .orElse ?_ (.orElse ?_ (.orElse ?_ (.orElse ?_ (yields_starParams hg))))
  · exact .bind (yields_slashNoDefault hg) fun _ hps => .bind (yields_paramNoDefault hg).many
      fun _ hqs => .bind (yields_paramWithDefault hg).many fun _ hds =>
        hending _ _ hps (within_append hqs hds)
  · exact .bind (yields_slashWithDefault hg) fun _ hps =>
      .bind (yields_paramWithDefault hg).many fun _ hds => hending _ _ hps hds
  · exact .bind (yields_paramNoDefault hg).some1 fun _ hqs =>
      .bind (yields_paramWithDefault hg).many fun _ hds =>
        hending _ _ trivial (within_append hqs hds)
  · exact .bind (yields_paramWithDefault hg).some1 fun _ hds => hending _ _ trivial hds

theorem gives_parameters : Gives text (IsParamList text) (parameters g style) := by
  have hnode : ∀ l : ParamList, Within text l →
      Gives text (IsParamList text) (pure l.node : Parse Node) := fun l hl _ hs =>
    ⟨⟨within_paramList hl, l, plain_paramList hl, rfl⟩, hs⟩
  exact Gives.andThen (Yields.optional (.orElse .diagnosing (yields_parameterList hg))) fun
    | some _, hl => hnode _ hl
    | none, _ => hnode _ ⟨trivial, trivial, trivial, trivial, trivial⟩

end

/-! ## Chains -/

theorem yields_tupleOf (hp : Yields text p) : Yields text (tupleOf p) :=
  .start fun _ ht => .bind hp fun _ hfirst => .bind (.many (.op fun _ _ => hp)) fun _ hmore =>
    .ite
      (.bind Yields.opToken.optional fun
        | some _, _ => .build rfl ht ⟨hfirst, trivial⟩
        | none, _ => .pure hfirst)
      (.bind Yields.opToken.optional fun _ _ => .build rfl ht ⟨hfirst, hmore⟩)

theorem yields_operatorChain (hp : Yields text p) {symbols : List String} :
    Yields text (operatorChain p symbols) :=
  .start fun _ ht => .growing hp fun _ hleft => .opIn fun _ _ => .bind hp fun _ hright =>
    .build rfl ht ⟨hleft, hright, trivial⟩

theorem yields_wordChain (hp : Yields text p) {w : String} : Yields text (wordChain p w) :=
  .start fun _ ht => .bind hp fun _ hfirst => .bind (.many (.word fun _ _ => hp)) fun _ hmore =>
    .ite (.pure hfirst) (.build rfl ht ⟨hfirst, hmore⟩)

theorem yields_comparisonOperator : Yields text comparisonOperator :=
  .firstOf ⟨.opIn fun _ _ => .pure trivial, .word fun _ _ => .word fun _ _ => .pure trivial,
    .word fun _ _ => .pure trivial, .word fun _ _ => .word fun _ _ => .pure trivial,
    .word fun _ _ => .pure trivial, trivial⟩

/-! ## Expressions -/

section

variable (hg : g.Sound text)
include hg

/-- A mistaken name is reported, never found. -/
theorem yields_mistakenName : Yields text (mistakenName g) := by
  have hword : ∀ w, Yields text (mistakenName.constantWord w) := fun w =>
    .word fun _ ht => .pure (within_node rfl (within_tokenSpan ht) trivial)
  refine .firstOf ⟨?_, ?_, ?_, trivial⟩
  · exact .bind hg.one fun _ _ => .op fun _ _ => .bind hg.one fun _ _ => .faultAtNode
  · exact .bind .name fun _ _ => .op fun _ _ => .bind hg.one fun _ _ =>
      .bind (.notAhead .opInToken) fun _ _ => .faultAtNode
  · refine .bind (.notAhead ?_) fun _ _ => .bind hg.one fun _ _ => .op fun _ _ =>
      .bind hg.one fun _ _ => .bind (.notAhead .opInToken) fun _ _ => .faultAtNode
    exact .firstOf ⟨hg.one, hg.one, hg.one, hword _, hword _, hword _, trivial⟩

theorem yields_plainExpression : Yields text (plainExpression g) :=
  .orElse
    (.start fun _ ht => .bind hg.one fun _ ha => .word fun _ _ => .bind hg.one fun _ hb =>
      .word fun _ _ => .bind hg.one fun _ hc => .build rfl ht ⟨hb, ha, hc, trivial⟩)
    (.orElse hg.one hg.one)

theorem yields_expression : Yields text (expression g) :=
  .orElse .diagnosing (.orElse .diagnosing (yields_plainExpression hg))

theorem yields_lambda : Yields text (lambda g) :=
  .word fun _ ht => (gives_parameters hg).bind fun _ hparams => .op fun _ _ =>
    .bind hg.one fun _ hbody => .build rfl ht ⟨hparams.1, hbody, trivial⟩

theorem yields_starExpression : Yields text (starExpression g) :=
  .orElse (.op fun _ ht => .bind hg.one fun _ he => .build rfl ht ⟨he, trivial⟩) hg.one

theorem yields_starredExpression : Yields text (starredExpression g) :=
  .op fun _ ht => .bind hg.one fun _ he => .build rfl ht ⟨he, trivial⟩

theorem yields_starNamedExpression : Yields text (starNamedExpression g) :=
  .orElse (.op fun _ ht => .bind hg.one fun _ he => .build rfl ht ⟨he, trivial⟩) hg.one

theorem yields_starNamedExpressions : Yields text (starNamedExpressions g) :=
  .bind (.commaSeparated hg.one) fun _ hitems =>
    .bind Yields.opToken.optional fun _ _ => .pure hitems

theorem yields_assignmentExpression : Yields text (assignmentExpression g) :=
  .committed
    (.start fun _ ht => .bind .name fun _ hn => .op fun _ _ => .pure (within_pair ht hn))
    (fun _ h => .bind hg.one fun _ he => .build rfl h.1 ⟨h.2, he, trivial⟩)
    .fail

theorem yields_unnamedExpression : Yields text (unnamedExpression g) :=
  .bind hg.one fun _ he => .bind (.notAhead .opToken) fun _ _ => .pure he

theorem yields_namedExpression : Yields text (namedExpression g) :=
  .orElse hg.one (.orElse .diagnosing (yields_unnamedExpression hg))

theorem yields_yieldExpression : Yields text (yieldExpression g) :=
  .orElse
    (.word fun _ ht => .word fun _ _ => .bind hg.one fun _ he => .build rfl ht ⟨he, trivial⟩)
    (.word fun _ ht => .bind hg.one.optional fun _ he => .build rfl ht (within_toList he))

theorem yields_inversion : Yields text (inversion g) :=
  .orElse (.word fun _ ht => .bind hg.one fun _ he => .build rfl ht ⟨he, trivial⟩) hg.one

theorem yields_comparison : Yields text (comparison g) :=
  .start fun _ ht => .bind hg.one fun _ hfirst =>
    .bind (.many (.bind yields_comparisonOperator fun _ _ => .bind hg.one fun _ he =>
      .pure (within_pair trivial he))) fun
      | [], _ => .pure hfirst
      | _ :: _, hmore => .build rfl ht ⟨hfirst, within_map hmore fun _ hpair => hpair.2⟩

theorem yields_factor : Yields text (factor g) :=
  .orElse (.opIn fun _ ht => .bind hg.one fun _ he => .build rfl ht ⟨he, trivial⟩) hg.one

theorem yields_power : Yields text (power g) :=
  .start fun _ ht => .bind hg.one fun _ hbase =>
    .bind (.optional (.op fun _ _ => hg.one)) fun
      | some _, he => .build rfl ht ⟨hbase, he, trivial⟩
      | none, _ => .pure hbase

theorem yields_awaitPrimary : Yields text (awaitPrimary g) :=
  .orElse (.word fun _ ht => .bind hg.one fun _ he => .build rfl ht ⟨he, trivial⟩) hg.one

theorem yields_callArguments : Yields text (callArguments g) :=
  .op fun _ _ => .bind (hg _).optional fun _ hfound => .op fun _ _ =>
    .pure (within_getD hfound trivial)

theorem yields_trailer {left : Node} (ht : Within text t) (hleft : Within text left) :
    Yields text (trailer g t left) :=
  .firstOf ⟨
    .op fun _ _ => .identifier fun _ _ => .build rfl ht ⟨hleft, trivial⟩,
    .bind hg.one fun _ he => .build rfl ht ⟨hleft, he, trivial⟩,
    .bind (yields_callArguments hg) fun _ hfound => .build rfl ht ⟨hleft, hfound⟩,
    .op fun _ _ => .bind hg.one fun _ hs => .op fun _ _ => .build rfl ht ⟨hleft, hs, trivial⟩,
    trivial⟩

theorem yields_primary : Yields text (primary g) :=
  .start fun _ ht => .growing hg.one fun _ hleft => yields_trailer hg ht hleft

theorem yields_slices : Yields text (slices g) :=
  .orElse
    (.bind hg.one fun _ hs => .bind (.notAhead .opToken) fun _ _ => .pure hs)
    (.start fun _ ht =>
      .bind (.commaSeparated (.orElse hg.one (yields_starredExpression hg))) fun _ hitems =>
        .bind Yields.opToken.optional fun _ _ => .build rfl ht hitems)

theorem yields_slice : Yields text (slice g) :=
  .orElse
    (.start fun _ ht => .bind hg.one.optional fun _ hlow => .op fun _ _ =>
      .bind hg.one.optional fun _ hhigh =>
        .bind (.optional (.op fun _ _ => hg.one.optional)) fun step hstep => by
          refine .build rfl ht (within_append (within_append (within_toList hlow)
            (within_toList hhigh)) (within_toList ?_))
          cases step with
          | none => trivial
          | some step => exact hstep)
    hg.one

/-! ## Arguments -/

theorem yields_namedArgument : Yields text (namedArgument g) :=
  .identifier fun _ ht => .op fun _ _ => .bind hg.one fun _ he => .build rfl ht ⟨he, trivial⟩

theorem yields_keywordOrStarred : Yields text (keywordOrStarred g) :=
  .orElse .diagnosing (.orElse (yields_namedArgument hg) (yields_starredExpression hg))

theorem yields_keywordOrDoubleStarred : Yields text (keywordOrDoubleStarred g) :=
  .orElse .diagnosing (.orElse (yields_namedArgument hg)
    (.op fun _ ht => .bind hg.one fun _ he => .build rfl ht ⟨he, trivial⟩))

theorem yields_keywordArguments : Yields text (keywordArguments g) :=
  .orElse
    (.bind (yields_keywordOrStarred hg).commaSeparated fun _ ha => .op fun _ _ =>
      .bind (yields_keywordOrDoubleStarred hg).commaSeparated fun _ hb =>
        .pure (within_append ha hb))
    (.orElse (yields_keywordOrStarred hg).commaSeparated
      (yields_keywordOrDoubleStarred hg).commaSeparated)

theorem yields_positionalArgument : Yields text (positionalArgument g) :=
  .orElse (yields_starredExpression hg)
    (.bind (.orElse hg.one (yields_unnamedExpression hg)) fun _ he =>
      .bind (.notAhead .opToken) fun _ _ => .pure he)

theorem yields_args : Yields text (args g) :=
  .orElse
    (.bind (yields_positionalArgument hg).commaSeparated fun _ ha =>
      .bind (.optional (.op fun _ _ => yields_keywordArguments hg)) fun _ hb =>
        have hb := within_getD hb (a := []) trivial
        .pure (within_append (within_append ha (within_filter hb)) (within_filter hb)))
    (.bind (yields_keywordArguments hg) fun _ hb =>
      .pure (within_append (within_filter hb) (within_filter hb)))

theorem yields_arguments : Yields text (arguments g) :=
  .orElse
    (.bind (hg _) fun _ ha => .bind Yields.opToken.optional fun _ _ =>
      .bind (.ahead .opToken) fun _ _ => .pure ha)
    .diagnosing

end

end CodeAudit.Syntax
