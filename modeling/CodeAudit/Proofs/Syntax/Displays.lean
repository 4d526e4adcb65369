import CodeAudit.Proofs.Syntax.Expressions
import CodeAudit.Proofs.Syntax.Fields

/-!
# Atoms, targets and patterns keep to a text

What stands between brackets, what can be assigned to and what a case can match, form by form. A
formatted text is the one atom that is read from characters: the expressions in it are read as
sources of their own, which lie over the text where the token does (`within_fieldNodes`).
-/

namespace CodeAudit.Syntax

open Text Parse

variable {text : List Char} {g : Grammar} {t : Token} {w : String}

/-! ## Texts -/

section

variable {embedded : Cursor → Except Fault Node} {span : Span} {nodes : List Node}

/-- A reader of embedded expressions that keeps to a text. -/
def Embeds (text : List Char) (embedded : Cursor → Except Fault Node) : Prop :=
  ∀ c n, c.On text → embedded c = .ok n → Within text n

theorem within_fieldNodes (hembedded : Embeds text embedded) (hspan : Within text span)
    {fields : List Field} (hfields : ∀ f ∈ fields, f.On text)
    (h : fieldNodes embedded span fields = .ok nodes) : Within text nodes := by
  induction fields using fieldNodes.induct generalizing nodes with
  | case1 =>
    rw [fieldNodes] at h
    cases h
    trivial
  | case2 expr spec rest ihrest ihspec =>
    obtain ⟨⟨hexpr, hspec⟩, hrest⟩ := List.forall_mem_cons.1 hfields
    rw [fieldNodes] at h
    cases hvalue : embedded expr with
    | error e =>
      rw [hvalue] at h
      cases h
    | ok value =>
      rw [hvalue] at h
      have hjoin : ∀ format : List Node, Within text format →
          (do pure (Node.mk .interpolation span (value :: format) ::
            (← fieldNodes embedded span rest))) = Except.ok nodes → Within text nodes := by
        intro format hformat h
        cases hmore : fieldNodes embedded span rest with
        | error e =>
          rw [hmore] at h
          cases h
        | ok more =>
          rw [hmore] at h
          cases h
          exact ⟨within_node rfl hspan ⟨hembedded _ _ hexpr hvalue, hformat⟩, ihrest hrest hmore⟩
      cases spec with
      | none => exact hjoin [] trivial h
      | some fields =>
        dsimp only [bind, Except.bind] at h
        cases hinner : fieldNodes embedded span fields with
        | error e =>
          rw [hinner] at h
          cases h
        | ok inner =>
          rw [hinner] at h
          exact hjoin [.mk .joinedText span inner]
            ⟨within_node rfl hspan (ihspec (hspec _ rfl) hinner), trivial⟩ h

theorem within_textNodes {bytes : Bool} (hembedded : Embeds text embedded)
    (hspan : Within text span) (ht : Within text t)
    (h : textNodes embedded span bytes t = .ok nodes) : Within text nodes := by
  unfold textNodes at h
  dsimp only [bind, Except.bind] at h
  split at h
  · cases h
  · split_ifs at h
    · cases h
      trivial
    · cases hnodes : fieldNodes embedded span (t.fields (TextMark.of t.lexeme.toList)).1 with
      | error e =>
        rw [hnodes] at h
        cases h
      | ok found =>
        rw [hnodes] at h
        dsimp only [Except.mapError] at h
        split at h
        · cases h
        · cases h
          exact within_fieldNodes hembedded hspan (ht.fields _) hnodes

theorem within_mapM {ε : Type} {f : Token → Except ε (List Node)} {tokens : List Token}
    {found : List (List Node)} (htokens : Within text tokens) (h : tokens.mapM f = .ok found)
    (hf : ∀ t nodes, Within text t → f t = .ok nodes → Within text nodes) : Within text found := by
  induction tokens generalizing found with
  | nil =>
    cases h
    trivial
  | cons t tokens ih =>
    rw [List.mapM_cons] at h
    cases hnodes : f t with
    | error e =>
      rw [hnodes] at h
      cases h
    | ok nodes =>
      rw [hnodes] at h
      cases hmore : tokens.mapM f with
      | error e =>
        rw [hmore] at h
        cases h
      | ok more =>
        rw [hmore] at h
        cases h
        exact ⟨hf t nodes htokens.1 hnodes, ih htokens.2 hmore⟩

theorem yields_strings (hembedded : Embeds text embedded) : Yields text (strings embedded) := by
  refine .start fun t ht => .bind Yields.textToken.some1 fun tokens htokens =>
    .bind (.spanFrom ht) fun span hspan => ?_
  dsimp only
  split
  · exact .faultAt
  · exact .faultHere
  next nodes hnodes =>
    have hnodes := within_mapM htokens hnodes fun _ _ ht => within_textNodes hembedded hspan ht
    exact .ite (.pure (within_node rfl hspan (within_flatten hnodes)))
      (.ite (.pure (within_node rfl hspan trivial)) (.pure (within_node rfl hspan trivial)))

end

theorem yields_constantWord {value : Literal} : Yields text (constantWord w value) :=
  .word fun _ ht => .pure (within_node rfl (within_tokenSpan ht) trivial)

section

variable (hg : g.Sound text)
include hg

/-! ## Comprehensions -/

theorem yields_forIfClause : Yields text (forIfClause g) := by
  have hhead : ∀ intro : Parse Unit, Yields text intro → Yields text (forIfClause.head g intro) :=
    fun intro hintro => .start fun _ ht => .bind hintro fun _ _ => .bind hg.one fun _ htarget =>
      .word fun _ _ => .pure ⟨ht, htarget⟩
  have hbody : ∀ p, Within text p → Yields text (forIfClause.body g p) := fun p hp =>
    .bind hg.one fun _ hsource => .bind (.many (.word fun _ _ => hg.one)) fun _ htests =>
      .build rfl hp.1 ⟨hp.2, hsource, htests⟩
  refine .committed (hhead _ ?_) hbody (.committed (hhead _ ?_) hbody ?_)
  · exact .word fun _ _ => .word fun _ _ => .pure trivial
  · exact .word fun _ _ => .pure trivial
  · exact .bind .diagnosing fun
      | _ :: _, h => .pure h.1
      | [], _ => .fail

theorem yields_forIfClauses : Yields text (forIfClauses g) := (yields_forIfClause hg).some1

theorem yields_comprehensionIn {opening closing : String} {label : Label} {item : Parse (List Node)}
    (hfree : label.isFree = true) (hitem : Yields text item) :
    Yields text (comprehensionIn g opening closing label item) :=
  .op fun _ ht => .bind hitem fun _ he => .bind (hg _) fun _ hclauses => .op fun _ _ =>
    .build hfree ht (within_append he hclauses)

theorem yields_generator : Yields text (generator g) :=
  .orElse (yields_comprehensionIn hg rfl (.bind (.orElse hg.one (yields_unnamedExpression hg))
    fun _ he => .pure ⟨he, trivial⟩)) .diagnosing

theorem yields_listComprehension : Yields text (listComprehension g) :=
  .orElse (yields_comprehensionIn hg rfl (.bind hg.one fun _ he => .pure ⟨he, trivial⟩)) .diagnosing

theorem yields_setComprehension : Yields text (setComprehension g) :=
  .orElse (yields_comprehensionIn hg rfl (.bind hg.one fun _ he => .pure ⟨he, trivial⟩)) .diagnosing

/-! ## Displays -/

theorem yields_tuple : Yields text (tuple g) := by
  refine .op fun _ ht => .bind (.optional ?_) fun _ hitems => .op fun _ _ =>
    .build rfl ht (within_getD hitems trivial)
  exact .bind hg.one fun _ hfirst => .op fun _ _ => .bind (hg _).optional fun _ hmore =>
    .pure ⟨hfirst, within_getD hmore trivial⟩

theorem yields_group : Yields text (group g) :=
  .orElse (.op fun _ _ => .bind (.orElse hg.one hg.one) fun _ he => .op fun _ _ => .pure he)
    .diagnosing

theorem yields_list : Yields text (list g) :=
  .op fun _ ht => .bind (hg _).optional fun _ hitems => .op fun _ _ =>
    .build rfl ht (within_getD hitems trivial)

theorem yields_set : Yields text (set g) :=
  .op fun _ ht => .bind (hg _) fun _ hitems => .op fun _ _ => .build rfl ht hitems

theorem yields_keyValue : Yields text (keyValue g) :=
  .bind hg.one fun _ hk => .op fun _ _ => .bind hg.one fun _ hv => .pure ⟨hk, hv⟩

theorem yields_dictItem : Yields text (dictItem g) :=
  .orElse (.op fun _ _ => .bind hg.one fun _ he => .pure ⟨trivial, he⟩) (yields_keyValue hg)

theorem yields_dict : Yields text (dict g) := by
  refine .orElse ?_ (.op fun _ _ => .diagnosing)
  refine .op fun _ ht => .bind (.optional ?_) fun _ hitems => .op fun _ _ => ?_
  · exact .bind (yields_dictItem hg).commaSeparated fun _ hitems =>
      .bind Yields.opToken.optional fun _ _ => .pure hitems
  · have hitems := within_getD hitems (a := []) trivial
    exact .build rfl ht (within_append (within_filterMap hitems fun _ h => h.1)
      (within_map hitems fun _ h => h.2))

theorem yields_dictComprehension : Yields text (dictComprehension g) :=
  .orElse (yields_comprehensionIn hg rfl (.bind (yields_keyValue hg) fun _ h =>
    .pure (within_append (within_toList h.1) ⟨h.2, trivial⟩))) .diagnosing

theorem yields_atom : Yields text (atom g) :=
  .firstOf ⟨
    .name,
    yields_constantWord,
    yields_constantWord,
    yields_constantWord,
    .bind (.ahead .textToken) fun _ _ => hg.one,
    .bind .number fun _ ht => .pure (within_node rfl (within_tokenSpan ht) trivial),
    .bind (.ahead .opToken) fun _ _ => .orElse hg.one (.orElse (yields_group hg) hg.one),
    .bind (.ahead .opToken) fun _ _ => .orElse hg.one (yields_listComprehension hg),
    .bind (.ahead .opToken) fun _ _ => .orElse (yields_dict hg) (.orElse (yields_set hg)
      (.orElse (yields_dictComprehension hg) (yields_setComprehension hg))),
    .op fun _ ht => .pure (within_node rfl (within_tokenSpan ht) trivial),
    trivial⟩

end

end CodeAudit.Syntax
