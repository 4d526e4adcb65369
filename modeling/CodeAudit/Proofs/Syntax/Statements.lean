import CodeAudit.Proofs.Syntax.Patterns

/-!
# Statements keep to a text

Simple statements, compound statements with their blocks, and whole modules, form by form. The ends
of lines and the indentation of blocks are tokens without text; they are passed and start no node.
-/

namespace CodeAudit.Syntax

open Text Parse

variable {text : List Char} {g : Grammar} {t : Token} {w : String}

/-! ## Imports -/

theorem yields_dottedName : Yields text dottedName :=
  .identifier fun _ _ => .bind (.many (.op fun _ _ => .nameToken)) fun _ _ => .pure trivial

theorem yields_importedModule : Yields text importedModule :=
  .start fun _ ht => .bind yields_dottedName fun _ _ =>
    .bind (.optional (.word fun _ _ => .nameToken)) fun _ _ => .build rfl ht trivial

theorem yields_importedMember : Yields text importedMember :=
  .identifier fun _ ht => .bind (.optional (.word fun _ _ => .nameToken)) fun _ _ =>
    .build rfl ht trivial

theorem yields_importedMembers : Yields text importedMembers :=
  .firstOf ⟨
    .op fun _ _ => .bind yields_importedMember.commaSeparated fun _ hitems =>
      .bind Yields.opToken.optional fun _ _ => .op fun _ _ => .pure hitems,
    .bind yields_importedMember.commaSeparated fun _ hitems =>
      .bind (.notAhead .opToken) fun _ _ => .pure hitems,
    .op fun _ ht => .pure ⟨within_node rfl (within_tokenSpan ht) trivial, trivial⟩,
    .diagnosing,
    trivial⟩

theorem yields_importStatement : Yields text importStatement :=
  .firstOf ⟨
    .word fun _ ht => .bind yields_importedModule.commaSeparated fun _ hitems =>
      .build rfl ht hitems,
    .word fun _ ht => .bind Yields.opInToken.many fun _ _ => .bind yields_dottedName fun _ _ =>
      .word fun _ _ => .bind yields_importedMembers fun _ hitems => .build rfl ht hitems,
    .word fun _ ht => .bind Yields.opInToken.some1 fun _ _ => .word fun _ _ =>
      .bind yields_importedMembers fun _ hitems => .build rfl ht hitems,
    trivial⟩

section

variable (hg : g.Sound text)
include hg

/-! ## Simple statements -/

theorem yields_assignedValue : Yields text (assignedValue g) := .orElse hg.one hg.one

theorem yields_annotationOf {target : Node} (ht : Within text t) (htarget : Within text target) :
    Yields text (annotationOf g t target) :=
  .op fun _ _ => .bind hg.one fun _ he =>
    .bind (.optional (.op fun _ _ => yields_assignedValue hg)) fun _ hv =>
      .build rfl ht ⟨htarget, he, within_toList hv⟩

theorem yields_mistakenHint : Yields text (mistakenHint g) :=
  .orElse hg.one (.orElse hg.one
    (.op fun _ _ => .bind hg.one fun _ ha => .op fun _ _ => .pure ha))

theorem yields_assignment : Yields text (assignment g) := by
  refine .orElse ?_ (.orElse ?_ (.orElse ?_ (.committed ?_ ?_ .diagnosing)))
  · exact .start fun _ ht => .bind .name fun _ hn => yields_annotationOf hg ht hn
  · refine .start fun _ ht => .bind (.orElse ?_ hg.one) fun _ htarget =>
      yields_annotationOf hg ht htarget
    exact .op fun _ _ => .bind hg.one fun _ he => .op fun _ _ => .pure he
  · refine .start fun _ ht => .bind (.some1 ?_) fun _ htargets =>
      .bind (yields_assignedValue hg) fun _ hv => .bind (.notAhead .opToken) fun _ _ =>
        .build rfl ht (within_append htargets ⟨hv, trivial⟩)
    exact .bind hg.one fun _ he => .op fun _ _ => .pure he
  · exact .start fun _ ht => .bind hg.one fun _ htarget => .opIn fun _ _ => .pure ⟨ht, htarget⟩
  · exact fun _ h => .bind (yields_assignedValue hg) fun _ hv => .build rfl h.1 ⟨h.2, hv, trivial⟩

theorem yields_wordStatement : Yields text (wordStatement g) :=
  .firstOf ⟨
    .word fun _ ht => .bind hg.one.optional fun _ he => .build rfl ht (within_toList he),
    yields_importStatement,
    .word fun _ ht => .bind hg.one fun _ he =>
      .bind (.optional (.word fun _ _ => hg.one)) fun _ hcause =>
        .build rfl ht ⟨he, within_toList hcause⟩,
    .word fun _ ht => .build rfl ht trivial,
    .word fun _ ht => .build rfl ht trivial,
    .word fun _ ht => .bind (hg _) fun _ hitems =>
      .bind (.ahead (.orElse (.op fun _ _ => .pure trivial) (.past (.pure trivial)))) fun _ _ =>
        .build rfl ht hitems,
    .diagnosing,
    .start fun _ ht => .bind (.ahead .wordToken) fun _ _ => .bind hg.one fun _ he =>
      .build rfl ht ⟨he, trivial⟩,
    .word fun _ ht => .bind hg.one fun _ he =>
      .bind (.optional (.op fun _ _ => hg.one)) fun _ hm => .build rfl ht ⟨he, within_toList hm⟩,
    .word fun _ ht => .build rfl ht trivial,
    .word fun _ ht => .build rfl ht trivial,
    .word fun _ ht => .bind Yields.nameToken.commaSeparated fun _ _ => .build rfl ht trivial,
    .word fun _ ht => .bind Yields.nameToken.commaSeparated fun _ _ => .build rfl ht trivial,
    trivial⟩

theorem yields_simpleStatement : Yields text (simpleStatement g) :=
  .firstOf ⟨
    yields_assignment hg,
    .start fun _ ht => .bind hg.one fun _ he => .build rfl ht ⟨he, trivial⟩,
    yields_wordStatement hg,
    trivial⟩

theorem yields_simpleStatements : Yields text (simpleStatements g) :=
  .orElse
    (.bind hg.one fun _ hs => .bind (.notAhead .opToken) fun _ _ => .past (.pure ⟨hs, trivial⟩))
    (.bind (.separated hg.one .opToken) fun _ hitems => .bind Yields.opToken.optional fun _ _ =>
      .past (.pure hitems))

/-! ## Blocks -/

theorem yields_block : Yields text (block g) :=
  .firstOf ⟨
    .past (.past (.bind (hg _) fun _ hbody => .past (.pure hbody))),
    hg _,
    .diagnosing,
    trivial⟩

theorem yields_elseBlock : Yields text (elseBlock g) :=
  .orElse .diagnosing (.word fun _ _ => .bind .forced fun _ _ => hg _)

theorem yields_optionalElse : Yields text (optionalElse g) :=
  .bind (hg _).optional fun _ h => .pure (within_getD h trivial)

theorem yields_branch : Yields text (branch g w) := by
  refine .orElse .diagnosing (.orElse ?_ ?_)
  · exact .word fun _ ht => .bind hg.one fun _ htest => .op fun _ _ => .bind (hg _) fun _ hbody =>
      .bind hg.one fun _ hnext => .build rfl ht ⟨htest, within_append hbody ⟨hnext, trivial⟩⟩
  · exact .word fun _ ht => .bind hg.one fun _ htest => .op fun _ _ => .bind (hg _) fun _ hbody =>
      .bind (yields_optionalElse hg) fun _ hother =>
        .build rfl ht ⟨htest, within_append hbody hother⟩

theorem yields_whileStatement : Yields text (whileStatement g) :=
  .orElse .diagnosing (.word fun _ ht => .bind hg.one fun _ htest => .op fun _ _ =>
    .bind (hg _) fun _ hbody => .bind (yields_optionalElse hg) fun _ hother =>
      .build rfl ht ⟨htest, within_append hbody hother⟩)

theorem yields_forStatement : Yields text (forStatement g) := by
  have hhead : ∀ mark : Parse Unit, Yields text mark → Yields text (forStatement.head g mark) :=
    fun mark hmark => .start fun _ ht => .bind hmark fun _ _ => .word fun _ _ =>
      .bind hg.one fun _ htarget => .word fun _ _ => .pure ⟨ht, htarget⟩
  have hrest : ∀ isAsync p, Within text p → Yields text (forStatement.rest g isAsync p) :=
    fun isAsync p hp => .bind hg.one fun _ hsource => .op fun _ _ => .bind (hg _) fun _ hbody =>
      .bind (yields_optionalElse hg) fun _ hother =>
        .build rfl hp.1 ⟨hp.2, hsource, within_append hbody hother⟩
  refine .orElse .diagnosing (.committed (hhead _ ?_) (hrest _)
    (.committed (hhead _ ?_) (hrest _) ?_))
  · exact .pure trivial
  · exact .word fun _ _ => .pure trivial
  · exact .bind .diagnosing fun
      | _ :: _, h => .pure h.1
      | [], _ => .fail

theorem yields_withItem : Yields text (withItem g) :=
  .firstOf ⟨
    .start fun _ ht => .bind hg.one fun _ he => .word fun _ _ => .bind hg.one fun _ htarget =>
      .bind (.ahead .opInToken) fun _ _ => .build rfl ht ⟨he, htarget, trivial⟩,
    .diagnosing,
    .start fun _ ht => .bind hg.one fun _ he => .build rfl ht ⟨he, trivial⟩,
    trivial⟩

theorem yields_withStatement : Yields text (withStatement g) := by
  have hgrouped : Yields text (withStatement.grouped g) :=
    .op fun _ _ => .bind (yields_withItem hg).commaSeparated fun _ hitems =>
      .bind Yields.opToken.optional fun _ _ => .op fun _ _ => .pure hitems
  have hplain : Yields text (withStatement.plain g) := (yields_withItem hg).commaSeparated
  have hform : ∀ (isAsync : Bool) (mark : Parse Unit) (items : Parse (List Node)),
      Yields text mark → Yields text items →
      Yields text (withStatement.form g isAsync mark items) := fun _ _ _ hmark hitems =>
    .start fun _ ht => .bind hmark fun _ _ => .word fun _ _ => .bind hitems fun _ hitems =>
      .op fun _ _ => .bind (hg _) fun _ hbody => .build rfl ht (within_append hitems hbody)
  have hasync : Yields text (do let _ ← word "async") := .word fun _ _ => .pure trivial
  exact .firstOf ⟨.diagnosing, hform _ _ _ (.pure trivial) hgrouped,
    hform _ _ _ (.pure trivial) hplain, hform _ _ _ hasync hgrouped, hform _ _ _ hasync hplain,
    .diagnosing, trivial⟩

/-! ## Handlers -/

omit hg in
theorem yields_handlerName : Yields text handlerName :=
  .bind (.optional (.word fun _ _ => .nameToken)) fun _ _ => .pure trivial

theorem yields_handler : Yields text (handler g) :=
  .firstOf ⟨
    .diagnosing,
    .word fun _ ht => .bind hg.one fun _ he => .bind yields_handlerName fun _ _ => .op fun _ _ =>
      .bind (hg _) fun _ hbody => .build rfl ht ⟨he, hbody⟩,
    .word fun _ ht => .op fun _ _ => .bind (hg _) fun _ hbody => .build rfl ht hbody,
    .diagnosing,
    trivial⟩

theorem yields_starHandler : Yields text (starHandler g) :=
  .firstOf ⟨
    .diagnosing,
    .word fun _ ht => .op fun _ _ => .bind hg.one fun _ he => .bind yields_handlerName fun _ _ =>
      .op fun _ _ => .bind (hg _) fun _ hbody => .build rfl ht ⟨he, hbody⟩,
    .diagnosing,
    trivial⟩

theorem yields_finallyBlock : Yields text (finallyBlock g) :=
  .orElse .diagnosing (.word fun _ _ => .bind .forced fun _ _ => hg _)

theorem yields_tryStatement : Yields text (tryStatement g) := by
  have hending : Yields text (tryStatement.ending g) :=
    .bind (yields_optionalElse hg) fun _ hother =>
      .bind (yields_finallyBlock hg).optional fun _ hlast =>
        .pure ⟨hother, within_getD hlast trivial⟩
  have hguarded : ∀ {label : Label} {p : Parse Node}, label.isFree = true → Yields text p →
      Yields text (do
        let t ← word "try"
        let _ ← forced ":"
        let body ← g .block
        let handlers ← some1 p
        let ending ← tryStatement.ending g
        build t label (body ++ handlers ++ ending.1 ++ ending.2)) := fun hfree hp =>
    .word fun _ ht => .bind .forced fun _ _ => .bind (hg _) fun _ hbody =>
      .bind hp.some1 fun _ hhandlers => .bind hending fun _ h =>
        .build hfree ht (within_append (within_append (within_append hbody hhandlers) h.1) h.2)
  refine .firstOf ⟨.diagnosing, ?_, hguarded rfl (yields_handler hg),
    hguarded rfl (yields_starHandler hg), trivial⟩
  exact .word fun _ ht => .bind .forced fun _ _ => .bind (hg _) fun _ hbody =>
    .bind (yields_finallyBlock hg) fun _ hlast => .build rfl ht (within_append hbody hlast)

/-! ## Definitions -/

theorem yields_functionDef {decorators : List Node} (hdecorators : Within text decorators) :
    Yields text (functionDef g decorators) := by
  have hform : ∀ (isAsync : Bool) (mark : Parse Unit), Yields text mark →
      Yields text (functionDef.form g decorators isAsync mark) := fun isAsync mark hmark =>
    .start fun _ ht => .bind hmark fun _ _ => .word fun _ _ => .identifier fun _ _ =>
      .bind .forced fun _ _ => (gives_parameters hg).bind fun _ hparams => .op fun _ _ =>
        .bind (.optional (.op fun _ _ => hg.one)) fun _ hresult => .bind .forced fun _ _ =>
          .bind (hg _) fun _ hbody => yields_buildFunction ht hparams
            (within_append (within_append hbody hdecorators) (within_toList hresult))
  exact .firstOf ⟨.diagnosing, hform _ _ (.pure trivial),
    hform _ _ (.word fun _ _ => .pure trivial), trivial⟩

theorem yields_classArguments : Yields text (classArguments g) :=
  .bind (yields_callArguments hg).optional fun _ h => .pure (within_getD h trivial)

theorem yields_classDef {decorators : List Node} (hdecorators : Within text decorators) :
    Yields text (classDef g decorators) :=
  .firstOf ⟨
    .diagnosing,
    .word fun _ ht => .identifier fun _ _ => .bind (yields_classArguments hg) fun _ hbases =>
      .op fun _ _ => .bind (hg _) fun _ hbody =>
        .build rfl ht (within_append (within_append hbases hbody) hdecorators),
    trivial⟩

theorem yields_decorators : Yields text (decorators g) :=
  .some1 (.op fun _ _ => .bind hg.one fun _ he => .past (.pure he))

theorem yields_decorated {definition : List Node → Parse Node}
    (hdefinition : ∀ ds, Within text ds → Yields text (definition ds)) :
    Yields text (decorated g definition) :=
  .orElse (.bind (yields_decorators hg) hdefinition) (hdefinition [] trivial)

/-! ## Matches -/

theorem yields_matchSubject : Yields text (matchSubject g) :=
  .orElse
    (.start fun _ ht => .bind hg.one fun _ hfirst => .op fun _ _ =>
      .bind (hg _).optional fun _ hmore => .build rfl ht ⟨hfirst, within_getD hmore trivial⟩)
    hg.one

theorem yields_caseBlock : Yields text (caseBlock g) :=
  .firstOf ⟨
    .diagnosing,
    .softWord fun _ ht => .bind hg.one fun _ hp =>
      .bind (.optional (.word fun _ _ => hg.one)) fun _ hguard => .op fun _ _ =>
        .bind (hg _) fun _ hbody => .build rfl ht ⟨hp, within_append (within_toList hguard) hbody⟩,
    trivial⟩

theorem yields_matchStatement : Yields text (matchStatement g) :=
  .firstOf ⟨
    .softWord fun _ ht => .bind (yields_matchSubject hg) fun _ hsubject => .op fun _ _ =>
      .past (.past (.bind (yields_caseBlock hg).some1 fun _ hcases =>
        .past (.build rfl ht ⟨hsubject, hcases⟩))),
    .diagnosing,
    trivial⟩

/-! ## Modules -/

theorem yields_compoundStatement : Yields text (compoundStatement g) := by
  have hword : ∀ w, Yields text (do let _ ← word w) := fun w => .word fun _ _ => .pure trivial
  have hat : Yields text (do let _ ← op "@") := .op fun _ _ => .pure trivial
  have hwords : ∀ w w', Yields text (word w <|> word w') := fun w w' =>
    .orElse .wordToken .wordToken
  exact .firstOf ⟨
    .bind (.ahead (.orElse (hword _) (.orElse hat (hword _)))) fun _ _ =>
      yields_decorated hg fun _ hds => yields_functionDef hg hds,
    .bind (.ahead .wordToken) fun _ _ => yields_branch hg,
    .bind (.ahead (.orElse (hword _) hat)) fun _ _ =>
      yields_decorated hg fun _ hds => yields_classDef hg hds,
    .bind (.ahead (hwords _ _)) fun _ _ => yields_withStatement hg,
    .bind (.ahead (hwords _ _)) fun _ _ => yields_forStatement hg,
    .bind (.ahead .wordToken) fun _ _ => yields_tryStatement hg,
    .bind (.ahead .wordToken) fun _ _ => yields_whileStatement hg,
    yields_matchStatement hg,
    trivial⟩

theorem yields_statement : Yields text (statement g) :=
  .orElse (.bind hg.one fun _ hs => .pure ⟨hs, trivial⟩) (hg _)

theorem yields_statements : Yields text (statements g) :=
  .bind (hg _).some1 fun _ h => .pure (within_flatten h)

theorem yields_moduleBody : Yields text (moduleBody g) := by
  refine .bind (hg _).optional fun body hbody => .past (.pure ⟨.mk ?_ ?_ trivial, rfl⟩)
  · exact fun hplaced => nomatch hplaced
  · have hstatements : Within text (body.getD []) := within_getD hbody trivial
    exact fun n hn => (within_list.1 hstatements n hn).1

end

end CodeAudit.Syntax
