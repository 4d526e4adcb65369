import CodeAudit.Proofs.Syntax.Displays

/-!
# Targets and patterns keep to a text

What can be assigned to, looped over or deleted, and what a case can match, form by form.
-/

namespace CodeAudit.Syntax

open Text Parse

variable {text : List Char} {g : Grammar} {t : Token}

/-! ## Targets -/

section

variable (hg : g.Sound text)
include hg

theorem yields_targetPrimary : Yields text (targetPrimary g) := by
  have htrailer : ∀ t left, Within text t → Within text left →
      Yields text (targetPrimary.trailerOf g t left) := fun t left ht hleft =>
    .firstOf ⟨
      .op fun _ _ => .identifier fun _ _ => .build rfl ht ⟨hleft, trivial⟩,
      .op fun _ _ => .bind hg.one fun _ hs => .op fun _ _ => .build rfl ht ⟨hleft, hs, trivial⟩,
      .bind hg.one fun _ he => .build rfl ht ⟨hleft, he, trivial⟩,
      .bind (yields_callArguments hg) fun _ hfound => .build rfl ht ⟨hleft, hfound⟩,
      trivial⟩
  refine .start fun _ ht => .growing ?_ fun _ hleft => ?_
  · exact .bind hg.one fun _ ha => .bind (.ahead .opInToken) fun _ _ => .pure ha
  · exact .bind (htrailer _ _ ht hleft) fun _ he => .bind (.ahead .opInToken) fun _ _ => .pure he

theorem yields_attributeOrSubscript : Yields text (attributeOrSubscript g) :=
  .orElse
    (.start fun _ ht => .bind hg.one fun _ hleft => .op fun _ _ => .identifier fun _ _ =>
      .bind (.notAhead .opInToken) fun _ _ => .build rfl ht ⟨hleft, trivial⟩)
    (.start fun _ ht => .bind hg.one fun _ hleft => .op fun _ _ => .bind hg.one fun _ hs =>
      .op fun _ _ => .bind (.notAhead .opInToken) fun _ _ => .build rfl ht ⟨hleft, hs, trivial⟩)

theorem yields_starTargets : Yields text (starTargets g) :=
  .orElse
    (.bind hg.one fun _ ha => .bind (.notAhead .opToken) fun _ _ => .pure ha)
    (.start fun _ ht => .bind hg.one fun _ ha =>
      .bind (.many (.op fun _ _ => hg.one)) fun _ hmore =>
        .bind Yields.opToken.optional fun _ _ => .build rfl ht ⟨ha, hmore⟩)

theorem yields_starTarget : Yields text (starTarget g) :=
  .orElse
    (.op fun _ ht => .bind (.notAhead .opToken) fun _ _ => .bind hg.one fun _ he =>
      .build rfl ht ⟨he, trivial⟩)
    hg.one

theorem yields_targetWithStarAtom : Yields text (targetWithStarAtom g) :=
  .orElse (yields_attributeOrSubscript hg) hg.one

theorem yields_starAtom : Yields text (starAtom g) := by
  have hitems : Yields text (starAtom.tupleItems g) :=
    .orElse
      (.bind hg.one fun _ ha => .bind (.some1 (.op fun _ _ => hg.one)) fun _ hmore =>
        .bind Yields.opToken.optional fun _ _ => .pure ⟨ha, hmore⟩)
      (.bind hg.one fun _ ha => .op fun _ _ => .pure ⟨ha, trivial⟩)
  refine .firstOf ⟨.name, ?_, ?_, ?_, trivial⟩
  · exact .op fun _ _ => .bind hg.one fun _ he => .op fun _ _ => .pure he
  · exact .op fun _ ht => .bind hitems.optional fun _ hitems => .op fun _ _ =>
      .build rfl ht (within_getD hitems trivial)
  · refine .op fun _ ht => .bind (.optional ?_) fun _ hitems => .op fun _ _ =>
      .build rfl ht (within_getD hitems trivial)
    exact .bind (.commaSeparated hg.one) fun _ hitems =>
      .bind Yields.opToken.optional fun _ _ => .pure hitems

theorem yields_singleTarget : Yields text (singleTarget g) :=
  .orElse hg.one (.orElse .name
    (.op fun _ _ => .bind hg.one fun _ he => .op fun _ _ => .pure he))

theorem yields_delTargets : Yields text (delTargets g) :=
  .bind (.commaSeparated hg.one) fun _ hitems =>
    .bind Yields.opToken.optional fun _ _ => .pure hitems

theorem yields_delTarget : Yields text (delTarget g) :=
  .orElse (yields_attributeOrSubscript hg) (.firstOf ⟨
    .name,
    .op fun _ _ => .bind hg.one fun _ he => .op fun _ _ => .pure he,
    .op fun _ ht => .bind (hg _).optional fun _ hitems => .op fun _ _ =>
      .build rfl ht (within_getD hitems trivial),
    .op fun _ ht => .bind (hg _).optional fun _ hitems => .op fun _ _ =>
      .build rfl ht (within_getD hitems trivial),
    trivial⟩)

end

/-! ## Literals and names in patterns -/

theorem within_number (ht : Within text t) :
    Within text (Node.mk (.constant .number) (tokenSpan t) []) :=
  within_node rfl (within_tokenSpan ht) trivial

theorem yields_signedNumber : Yields text signedNumber :=
  .start fun _ ht => .bind Yields.opToken.optional fun
    | none, _ => .bind .number fun _ hn => .pure (within_number hn)
    | some _, _ => .bind .number fun _ hn => .build rfl ht ⟨within_number hn, trivial⟩

theorem yields_complexNumber : Yields text complexNumber :=
  .start fun _ ht => .bind yields_signedNumber fun _ hreal => .opIn fun _ _ =>
    .bind .number fun _ hn => .ite (.build rfl ht ⟨hreal, within_number hn, trivial⟩) .faultAt

theorem yields_captureTarget : Yields text captureTarget :=
  .bind (.notAhead .softToken) fun _ _ => .identifier fun _ ht =>
    .bind (.notAhead .opInToken) fun _ _ => .pure ht

theorem yields_attributePath : Yields text attributePath :=
  .start fun _ ht => .bind .name fun _ hfirst => .op fun _ _ => .identifier fun _ _ =>
    .bind (.build rfl ht ⟨hfirst, trivial⟩) fun _ hstart => .bind .remaining fun _ _ =>
      .extendWith (fun _ hleft => .op fun _ _ => .identifier fun _ _ =>
        .build rfl ht ⟨hleft, trivial⟩) hstart

theorem yields_starPattern : Yields text starPattern :=
  .op fun _ ht => .bind (.orElse yields_captureTarget .softToken) fun _ _ => .build rfl ht trivial

/-! ## Patterns -/

section

variable (hg : g.Sound text)
include hg

theorem yields_literalExpr : Yields text (literalExpr g) :=
  .firstOf ⟨
    .bind yields_signedNumber fun _ hn => .bind (.notAhead .opInToken) fun _ _ => .pure hn,
    yields_complexNumber,
    hg.one,
    yields_constantWord,
    yields_constantWord,
    yields_constantWord,
    trivial⟩

theorem yields_patternSequence : Yields text (patternSequence g) :=
  .bind (.commaSeparated (.orElse hg.one hg.one)) fun _ hitems =>
    .bind Yields.opToken.optional fun _ _ => .pure hitems

theorem yields_openSequence : Yields text (openSequence g) :=
  .bind (.orElse hg.one hg.one) fun _ hfirst => .op fun _ _ =>
    .bind (yields_patternSequence hg).optional fun _ hmore =>
      .pure ⟨hfirst, within_getD hmore trivial⟩

theorem yields_keyPattern : Yields text (keyPattern g) :=
  .bind (.orElse (yields_literalExpr hg) hg.one) fun _ hk => .op fun _ _ =>
    .bind hg.one fun _ hp => .pure ⟨hk, hp⟩

theorem yields_mappingPattern : Yields text (mappingPattern g) := by
  have hrest : Yields text mappingPattern.rest :=
    .op fun _ _ => .bind yields_captureTarget fun _ _ =>
      .bind Yields.opToken.optional fun _ _ => .pure trivial
  have hitems : ∀ {items : List (Node × Node)}, Within text items →
      Within text (items.map (·.1) ++ items.map (·.2)) := fun h =>
    within_append (within_map h fun _ hp => hp.1) (within_map h fun _ hp => hp.2)
  refine .op fun _ ht => .firstOf ⟨?_, ?_, ?_, ?_, trivial⟩
  · exact .op fun _ _ => .build rfl ht trivial
  · exact .bind hrest fun _ _ => .op fun _ _ => .build rfl ht trivial
  · exact .bind (yields_keyPattern hg).commaSeparated fun _ h => .op fun _ _ =>
      .bind hrest fun _ _ => .op fun _ _ => .build rfl ht (hitems h)
  · exact .bind (yields_keyPattern hg).commaSeparated fun _ h =>
      .bind Yields.opToken.optional fun _ _ => .op fun _ _ => .build rfl ht (hitems h)

theorem yields_keywordPattern : Yields text (keywordPattern g) :=
  .identifier fun _ _ => .op fun _ _ => hg.one

theorem yields_classPattern : Yields text (classPattern g) := by
  refine .start fun _ ht => .bind (.orElse hg.one .name) fun _ hcls => .op fun _ _ =>
    .firstOf ⟨?_, ?_, ?_, ?_, .diagnosing, trivial⟩
  · exact .op fun _ _ => .build rfl ht ⟨hcls, trivial⟩
  · exact .bind (.commaSeparated hg.one) fun _ hps => .bind Yields.opToken.optional fun _ _ =>
      .op fun _ _ => .build rfl ht ⟨hcls, hps⟩
  · exact .bind (yields_keywordPattern hg).commaSeparated fun _ hks =>
      .bind Yields.opToken.optional fun _ _ => .op fun _ _ => .build rfl ht ⟨hcls, hks⟩
  · exact .bind (.commaSeparated hg.one) fun _ hps => .op fun _ _ =>
      .bind (yields_keywordPattern hg).commaSeparated fun _ hks =>
        .bind Yields.opToken.optional fun _ _ => .op fun _ _ =>
          .build rfl ht ⟨hcls, within_append hps hks⟩

theorem yields_closedPattern : Yields text (closedPattern g) :=
  .firstOf ⟨
    .start fun _ ht => .bind (yields_literalExpr hg) fun _ he => .build rfl ht ⟨he, trivial⟩,
    .bind yields_captureTarget fun _ ht => .build rfl ht trivial,
    .softWord fun _ ht => .build rfl ht trivial,
    .start fun _ ht => .bind hg.one fun _ he => .bind (.notAhead .opInToken) fun _ _ =>
      .build rfl ht ⟨he, trivial⟩,
    .op fun _ _ => .bind hg.one fun _ hp => .op fun _ _ => .pure hp,
    .op fun _ ht => .bind (yields_patternSequence hg).optional fun _ hitems => .op fun _ _ =>
      .build rfl ht (within_getD hitems trivial),
    .op fun _ ht => .bind (yields_openSequence hg).optional fun _ hitems => .op fun _ _ =>
      .build rfl ht (within_getD hitems trivial),
    yields_mappingPattern hg,
    yields_classPattern hg,
    trivial⟩

theorem yields_orPattern : Yields text (orPattern g) := by
  refine .start fun _ ht => .bind (.separated hg.one .opToken) fun items hitems => ?_
  split
  · exact .pure hitems.1
  · exact .build rfl ht hitems

theorem yields_pattern : Yields text (pattern g) :=
  .firstOf ⟨
    .start fun _ ht => .bind hg.one fun _ hp => .word fun _ _ =>
      .bind yields_captureTarget fun _ _ => .build rfl ht ⟨hp, trivial⟩,
    .diagnosing,
    hg.one,
    trivial⟩

theorem yields_patterns : Yields text (patterns g) :=
  .orElse (.start fun _ ht => .bind (yields_openSequence hg) fun _ hitems => .build rfl ht hitems)
    hg.one

end

end CodeAudit.Syntax
