import CodeAudit.Proofs.Syntax.Tokens

/-!
# Parsers that keep to a text

A parser works on tokens that are placed in a text (`ParseState.Sound`). It keeps to the text if
every place in what it finds is a place of the text, and if parameters stand only in the parameter
lists with which functions begin (`Yields`). This module shows it for the primitive parsers and that
each combinator hands it on; what is left for the forms of the grammar is to follow their own
shape. Parsers that only take part in diagnosing yield nothing on a first
reading, which is the only one whose result is used.
-/

namespace CodeAudit.Syntax

open Text Parse

/-! ## Places in values -/

/-- Values with places in them. -/
class Located (α : Type) where
  /-- All places in a value are places of a text. -/
  Within : List Char → α → Prop

export Located (Within)

/-- Whether a kind of node has a place of its own. -/
def Label.isPlaced : Label → Bool
  | .module | .arguments => false
  | _ => true

/-- A stretch of source starts at a character of a text. -/
def Span.Starts (text : List Char) (span : Span) : Prop :=
  ∃ k, StandsAt text k span.line span.col

/-- Whether a kind is that of parameters. -/
def Label.isParam : Label → Bool
  | .param .. => true
  | _ => false

/-- The defaults in a parameter list are no parameters themselves. -/
def ParamList.Plain (l : ParamList) : Prop :=
  ∀ p ∈ l.positionalOnly ++ l.plain ++ l.keywordOnly, ∀ d ∈ p.default, d.label.isParam = false

/-- What the parts of a node are, as far as its kind tells: a function begins with its
parameters. -/
def Label.Shapes (parts : List Node) : Label → Prop
  | .functionDef .. => ∃ l : ParamList, l.Plain ∧ parts.head? = some l.node
  | _ => True

/-- Whether a kind is neither that of parameters nor one that tells its parts. -/
def Label.isFree : Label → Bool
  | .functionDef .. | .param .. => false
  | _ => true

/-- The nodes of a tree that have places start at characters of a text, and those that begin with
parameters have them. -/
inductive Node.Lies (text : List Char) : Node → Prop
  | mk {label : Label} {span : Span} {parts : List Node} :
      (label.isPlaced = true → span.Starts text) → (∀ n ∈ parts, Node.Lies text n) →
      label.Shapes parts → Node.Lies text (.mk label span parts)

variable {α β : Type} [Located α] [Located β]

/-- The members of a list lie in a text. -/
def allWithin (text : List Char) : List α → Prop
  | [] => True
  | a :: rest => Within text a ∧ allWithin text rest

/-- A value that may be absent lies in a text. -/
def anyWithin (text : List Char) : Option α → Prop
  | none => True
  | some a => Within text a

instance : Located Token := ⟨Token.Starts⟩
instance : Located Span := ⟨Span.Starts⟩
instance : Located Node := ⟨fun text n => n.Lies text ∧ n.label.isParam = false⟩
instance : Located (List α) := ⟨allWithin⟩
instance : Located (Option α) := ⟨anyWithin⟩
instance : Located (α × β) := ⟨fun text p => Within text p.1 ∧ Within text p.2⟩
instance : Located Unit := ⟨fun _ _ => True⟩
instance : Located Bool := ⟨fun _ _ => True⟩
instance : Located Nat := ⟨fun _ _ => True⟩
instance : Located String := ⟨fun _ _ => True⟩

variable {text : List Char} {a : α} {l l' : List α} {o : Option α} {t : Token}

theorem within_list : Within text l ↔ ∀ a ∈ l, Within text a := by
  induction l with
  | nil => exact iff_of_true trivial (by simp)
  | cons a l ih => exact (and_congr_right fun _ => ih).trans List.forall_mem_cons.symm

theorem within_append (hl : Within text l) (hl' : Within text l') : Within text (l ++ l') :=
  within_list.2 (List.forall_mem_append.2 ⟨within_list.1 hl, within_list.1 hl'⟩)

theorem within_filter {test : α → Bool} (h : Within text l) : Within text (l.filter test) :=
  within_list.2 fun a ha => within_list.1 h a (List.mem_filter.1 ha).1

theorem within_map {f : α → β} (h : Within text l) (hf : ∀ a, Within text a → Within text (f a)) :
    Within text (l.map f) :=
  within_list.2 (List.forall_mem_map.2 fun a ha => hf a (within_list.1 h a ha))

theorem within_filterMap {f : α → Option β} (h : Within text l)
    (hf : ∀ a, Within text a → Within text (f a)) : Within text (l.filterMap f) := by
  refine within_list.2 fun b hb => ?_
  obtain ⟨a, ha, hab⟩ := List.mem_filterMap.1 hb
  have hfa := hf a (within_list.1 h a ha)
  rw [hab] at hfa
  exact hfa

theorem within_flatten {ls : List (List α)} (h : Within text ls) : Within text ls.flatten := by
  refine within_list.2 fun a ha => ?_
  obtain ⟨l, hl, ha⟩ := List.mem_flatten.1 ha
  exact within_list.1 (within_list.1 h l hl) a ha

theorem within_pair {b : β} (ha : Within text a) (hb : Within text b) : Within text (a, b) :=
  ⟨ha, hb⟩

theorem within_toList (h : Within text o) : Within text o.toList := by
  cases o with
  | none => trivial
  | some a => exact ⟨h, trivial⟩

theorem within_getD (h : Within text o) (ha : Within text a) : Within text (o.getD a) := by
  cases o with
  | none => exact ha
  | some b => exact h

theorem Label.isParam_of_isFree {label : Label} (h : label.isFree = true) :
    label.isParam = false := by
  cases label with
  | param role name => cases h
  | _ => rfl

theorem Label.shapes_of_isFree {label : Label} {parts : List Node} (h : label.isFree = true) :
    label.Shapes parts := by
  cases label with
  | functionDef isAsync name => cases h
  | _ => trivial

theorem within_node {label : Label} {span : Span} {parts : List Node} (hfree : label.isFree = true)
    (hspan : Within text span) (hparts : Within text parts) :
    Within text (Node.mk label span parts) :=
  ⟨.mk (fun _ => hspan) (fun n hn => (within_list.1 hparts n hn).1) (Label.shapes_of_isFree hfree),
    Label.isParam_of_isFree hfree⟩

theorem within_tokenSpan (h : Within text t) : Within text (tokenSpan t) := by
  obtain ⟨k, col, chars, hstands, hstart, _⟩ := h
  refine ⟨k, ?_⟩
  simpa [tokenSpan, hstart] using hstands

/-! ## Parsers -/

/-- A state on whose first reading everything known lies in a text. -/
structure ParseState.Sound (text : List Char) (s : ParseState) : Prop where
  reading : s.diagnosing = false
  tokens : ∀ t ∈ s.source.tokens, t.Placed text
  memo : ∀ (key : Nat × Rule × Bool) (nodes : List Node) (stop : Nat),
    s.memo[key]? = some (some (nodes, stop)) → Within text nodes

/-- A reply whose value has a property, with the state behind it in a text. -/
def Reply.Sound (text : List Char) (P : α → Prop) : Reply α → Prop
  | .found a s => P a ∧ s.Sound text
  | .missing s => s.Sound text
  | .faulty _ _ _ => True

/-- A parser that finds values with a property on tokens of a text. -/
def Gives (text : List Char) (P : α → Prop) (p : Parse α) : Prop :=
  ∀ s, s.Sound text → (p s).Sound text P

/-- A parser that keeps to a text. -/
def Yields (text : List Char) (p : Parse α) : Prop := Gives text (Within text) p

/-- Parsers that all keep to a text. -/
def allYield (text : List Char) : List (Parse α) → Prop
  | [] => True
  | p :: rest => Yields text p ∧ allYield text rest

variable {p q : Parse α} {f : α → Parse β} {s : ParseState}

theorem ParseState.Sound.at (h : s.Sound text) (pos : Nat) : { s with pos := pos }.Sound text :=
  ⟨h.reading, h.tokens, h.memo⟩

/-! ### Tokens -/

/-- What is done with what a parser finds may rely on its property. -/
theorem Gives.andThen {α β : Type} {P : α → Prop} {Q : β → Prop} {p : Parse α} {f : α → Parse β}
    (hp : Gives text P p) (hf : ∀ a, P a → Gives text Q (f a)) : Gives text Q (p >>= f) := by
  intro s hs
  have hsound := hp s hs
  change Reply.Sound text _ (Parse.bind p f s)
  unfold Parse.bind
  generalize p s = reply at hsound ⊢
  cases reply with
  | found a s' => exact hf a hsound.1 s' hsound.2
  | missing s' => exact hsound
  | faulty e b s' => trivial

theorem Gives.bind {α : Type} {P : α → Prop} {p : Parse α} {f : α → Parse β} (hp : Gives text P p)
    (hf : ∀ a, P a → Yields text (f a)) : Yields text (p >>= f) := hp.andThen hf

/-- A token that is looked at is one of the source. -/
theorem gives_peek : Gives text (Token.Placed text) peek := by
  intro s hs
  unfold peek
  cases ht : s.source.tokens[s.pos]? with
  | some t =>
    refine ⟨hs.tokens t (Array.mem_of_getElem? ht), ?_⟩
    split
    · exact ⟨hs.reading, hs.tokens, hs.memo⟩
    · exact hs
  | none =>
    cases s.source.stop with
    | some stop => trivial
    | none => exact hs

theorem gives_token (test : Token → Bool) :
    Gives text (fun t => t.Placed text ∧ test t = true) (token test) := by
  intro s hs
  have hpeek := gives_peek s hs
  unfold token
  generalize peek s = reply at hpeek ⊢
  cases reply with
  | found t s' =>
    dsimp only
    split
    next htest => exact ⟨⟨hpeek.1, htest⟩, hpeek.2.at _⟩
    next => exact hpeek.2
  | missing s' => exact hpeek
  | faulty e b s' => trivial

namespace Yields

/-- Tokens that carry text start in the text. -/
protected theorem token {test : Token → Bool}
    (htest : ∀ t, test t = true → isSolid t = true) : Yields text (token test) := by
  intro s hs
  have htoken := gives_token test s hs
  generalize token test s = reply at htoken ⊢
  cases reply with
  | found t s' => exact ⟨htoken.1.1 (htest t htoken.1.2), htoken.2⟩
  | missing s' => exact htoken
  | faulty e b s' => trivial

/-- Tokens without text may be passed. -/
protected theorem past {test : Token → Bool} (hq : Yields text q) :
    Yields text (token test >>= fun _ => q) := (gives_token test).bind fun _ _ => hq

protected theorem startToken : Yields text startToken := by
  intro s hs
  have hpeek := gives_peek s hs
  unfold Parse.startToken
  generalize peek s = reply at hpeek ⊢
  cases reply with
  | found t s' =>
    dsimp only
    split
    next hsolid => exact ⟨hpeek.1 hsolid, hpeek.2⟩
    next => exact hpeek.2
  | missing s' => exact hpeek
  | faulty e b s' => trivial

/-! ### Sequence and choice -/

protected theorem pure (h : Within text a) : Yields text (pure a : Parse α) := fun _ hs => ⟨h, hs⟩

protected theorem fail : Yields text (fail : Parse α) := fun _ hs => hs

protected theorem bind (hp : Yields text p) (hf : ∀ a, Within text a → Yields text (f a)) :
    Yields text (p >>= f) := Gives.bind hp hf

protected theorem orElse (hp : Yields text p) (hq : Yields text q) : Yields text (p <|> q) := by
  intro s hs
  have hsound := hp s hs
  change Reply.Sound text _ (Parse.orElse p (fun _ => q) s)
  unfold Parse.orElse
  generalize p s = reply at hsound ⊢
  cases reply with
  | found a s' => exact hsound
  | missing s' => exact hq _ (hsound.at s.pos)
  | faulty e b s' => trivial

protected theorem firstOf {ps : List (Parse α)} (h : allYield text ps) :
    Yields text (firstOf ps) := by
  induction ps with
  | nil => exact .fail
  | cons p ps ih => exact .orElse h.1 (ih h.2)

protected theorem ite {c : Prop} [Decidable c] (hp : Yields text p) (hq : Yields text q) :
    Yields text (if c then p else q) := by
  split
  · exact hp
  · exact hq

protected theorem committed {other : Parse β} (hp : Yields text p)
    (hf : ∀ a, Within text a → Yields text (f a)) (hother : Yields text other) :
    Yields text (committed p f other) := by
  intro s hs
  have hsound := hp s hs
  unfold committed
  generalize p s = reply at hsound ⊢
  cases reply with
  | found a s' => exact hf a hsound.1 s' hsound.2
  | missing s' => exact hother _ (hsound.at s.pos)
  | faulty e b s' => trivial

/-! ### Looking ahead -/

protected theorem ahead (hp : Yields text p) : Yields text (ahead p) := by
  intro s hs
  have hsound := hp s hs
  unfold Parse.ahead
  generalize p s = reply at hsound ⊢
  cases reply with
  | found a s' => exact ⟨trivial, hsound.2.at s.pos⟩
  | missing s' => exact hsound.at s.pos
  | faulty e b s' => trivial

protected theorem notAhead (hp : Yields text p) : Yields text (notAhead p) := by
  intro s hs
  have hsound := hp s hs
  unfold Parse.notAhead
  generalize p s = reply at hsound ⊢
  cases reply with
  | found a s' => exact hsound.2.at s.pos
  | missing s' => exact ⟨trivial, hsound.at s.pos⟩
  | faulty e b s' => trivial

protected theorem optional (hp : Yields text p) : Yields text (optional p) := by
  intro s hs
  have hsound := hp s hs
  unfold Parse.optional
  generalize p s = reply at hsound ⊢
  cases reply with
  | found a s' => exact hsound
  | missing s' => exact ⟨trivial, hsound.at s.pos⟩
  | faulty e b s' => trivial

/-! ### Repetition -/

protected theorem remaining : Yields text remaining := fun _ hs => ⟨trivial, hs⟩

protected theorem repeated (hp : Yields text p) {fuel : Nat} : Yields text (repeated p fuel) := by
  induction fuel with
  | zero => exact .pure trivial
  | succ fuel ih =>
    exact .bind hp.optional fun
      | none, _ => .pure trivial
      | some _, ha => .bind ih fun _ hrest => .pure ⟨ha, hrest⟩

protected theorem many (hp : Yields text p) : Yields text (many p) :=
  .bind .remaining fun _ _ => hp.repeated

protected theorem some1 (hp : Yields text p) : Yields text (some1 p) :=
  .bind hp fun _ ha => .bind hp.many fun _ hrest => .pure ⟨ha, hrest⟩

protected theorem separated {sep : Parse β} (hp : Yields text p) (hsep : Yields text sep) :
    Yields text (separated p sep) :=
  .bind hp fun _ ha => .bind (.many (.bind hsep fun _ _ => hp)) fun _ hrest => .pure ⟨ha, hrest⟩

protected theorem extendWith {step : α → Parse α} {fuel : Nat}
    (hstep : ∀ a, Within text a → Yields text (step a)) (ha : Within text a) :
    Yields text (extendWith step fuel a) := by
  induction fuel generalizing a with
  | zero => exact .pure ha
  | succ fuel ih =>
    exact .bind (hstep a ha).optional fun
      | none, _ => .pure ha
      | some _, hb => ih hb

protected theorem growing {step : α → Parse α} (hp : Yields text p)
    (hstep : ∀ a, Within text a → Yields text (step a)) : Yields text (growing p step) :=
  .bind hp fun _ ha => .bind .remaining fun _ _ => .extendWith hstep ha

/-! ### Diagnosing -/

protected theorem diagnosing : Yields text (diagnosing p) := by
  intro s hs
  unfold Parse.diagnosing
  rw [hs.reading]
  exact hs

protected theorem withoutDiagnosing (hp : Yields text p) : Yields text (withoutDiagnosing p) := by
  intro s hs
  have hsound := hp { s with diagnosing := false } ⟨rfl, hs.tokens, hs.memo⟩
  unfold Parse.withoutDiagnosing
  generalize p { s with diagnosing := false } = reply at hsound ⊢
  cases reply with
  | found a s' => exact ⟨hsound.1, hs.reading, hsound.2.tokens, hsound.2.memo⟩
  | missing s' => exact ⟨hs.reading, hsound.tokens, hsound.memo⟩
  | faulty e b s' => trivial

protected theorem faultAt {message : String} {line column : Nat} :
    Yields text (faultAt message line column : Parse α) := fun _ _ => trivial

protected theorem faultHere {message : String} : Yields text (faultHere message : Parse α) := by
  intro s _
  unfold Parse.faultHere
  split <;> trivial

protected theorem faultAtNode {n : Node} {message : String} :
    Yields text (faultAtNode n message : Parse α) :=
  .bind (fun _ hs => ⟨trivial, hs⟩) fun _ _ => .faultAt

/-! ### Kinds of tokens -/

theorem isSolid_of_kind {kind : TokenKind} (h : (t.kind == kind) = true)
    (hkind : isSolid { t with kind } = true) : isSolid t = true := by
  rw [← beq_iff_eq.1 h] at hkind
  exact hkind

theorem opToken {symbol : String} : Yields text (op symbol) :=
  .token fun t h => isSolid_of_kind (t := t) (Bool.and_eq_true_iff.1 h).1 rfl

theorem opInToken {symbols : List String} : Yields text (opIn symbols) :=
  .token fun t h => isSolid_of_kind (t := t) (Bool.and_eq_true_iff.1 h).1 rfl

theorem wordToken {w : String} : Yields text (word w) :=
  .token fun t h => isSolid_of_kind (t := t) (Bool.and_eq_true_iff.1 h).1 rfl

theorem softToken {w : String} : Yields text (softWord w) :=
  .token fun t h => isSolid_of_kind (t := t) (Bool.and_eq_true_iff.1 h).1 rfl

theorem textToken : Yields text (ofKind .text) := .token fun t h => isSolid_of_kind (t := t) h rfl

protected theorem nameToken : Yields text nameToken :=
  .token fun t h => isSolid_of_kind (t := t) h rfl

protected theorem number : Yields text number :=
  .bind (.token fun t h => isSolid_of_kind (t := t) h rfl) fun _ ht => .ite .faultAt (.pure ht)

protected theorem forced {symbol : String} : Yields text (forced symbol) :=
  .bind opToken.optional fun
    | some _, ht => .pure ht
    | none, _ => gives_peek.bind fun _ _ => .faultAt

/-! ### Nodes -/

protected theorem spanFrom (ht : Within text t) : Yields text (spanFrom t) := by
  intro s hs
  exact ⟨within_tokenSpan ht, hs⟩

protected theorem build {label : Label} {parts : List Node} (hfree : label.isFree = true)
    (ht : Within text t) (hparts : Within text parts) : Yields text (build t label parts) :=
  .bind (.spanFrom ht) fun _ hspan => .pure (within_node hfree hspan hparts)

protected theorem name : Yields text name :=
  .bind .nameToken fun _ ht => .pure (within_node rfl (within_tokenSpan ht) trivial)

/-! ### Behind a token -/

theorem op {symbol : String} {f : Token → Parse α} (h : ∀ t, Within text t → Yields text (f t)) :
    Yields text (op symbol >>= f) := .bind opToken h

theorem opIn {symbols : List String} {f : Token → Parse α}
    (h : ∀ t, Within text t → Yields text (f t)) : Yields text (opIn symbols >>= f) :=
  .bind opInToken h

theorem word {w : String} {f : Token → Parse α} (h : ∀ t, Within text t → Yields text (f t)) :
    Yields text (word w >>= f) := .bind wordToken h

theorem softWord {w : String} {f : Token → Parse α} (h : ∀ t, Within text t → Yields text (f t)) :
    Yields text (softWord w >>= f) := .bind softToken h

theorem start {f : Token → Parse α} (h : ∀ t, Within text t → Yields text (f t)) :
    Yields text (startToken >>= f) := .bind .startToken h

theorem identifier {f : Token → Parse α} (h : ∀ t, Within text t → Yields text (f t)) :
    Yields text (nameToken >>= f) := .bind .nameToken h

protected theorem commaSeparated (hp : Yields text p) : Yields text (commaSeparated p) :=
  .separated hp opToken

end Yields

/-! ## Grammars -/

/-- A grammar whose forms all keep to a text. -/
def Grammar.Sound (text : List Char) (g : Grammar) : Prop := ∀ r, Yields text (g r)

theorem Grammar.Sound.one {g : Grammar} (hg : g.Sound text) {r : Rule} : Yields text (g.one r) :=
  .bind (hg r) fun
    | _ :: _, h => .pure h.1
    | [], _ => .fail

end CodeAudit.Syntax
