import CodeAudit.Syntax.Source

/-!
# Sources that are as deep as one likes

A parser goes down a level for every sign in front of a number. So there are sources whose syntax
trees have any number of levels (`exists_parse_signedClass`). The forms of the grammar are followed
along the tokens of such a source: each is there (`Reading.Finds`) or missing (`Reading.Misses`) at
a place. What is remembered of a form never says anything else (`Reading.Reaches`), so that it makes
no difference whether a form is read for the first time.
-/

namespace CodeAudit.Syntax

open Parse

/-! ## What is read -/

/-- A tree of at least so many levels. -/
def Node.Deep (k : Nat) (n : Node) : Prop := k ≤ n.reach

theorem Node.Deep.mk {k : Nat} {e : Node} (h : e.Deep k) (label : Label) (span : Span) :
    Node.Deep (k + 1) (.mk label span [e]) := by
  have hreach : e.reach ≤ reach.reachAll [e] := Nat.le_max_left _ _
  unfold Deep at h ⊢
  rw [reach]
  omega

/-- A class with a tree of at least so many levels. -/
def Node.DeepClass (k : Nat) (n : Node) : Prop := n.label = .classDef "a" ∧ n.Deep k

/-- What each rule yields at a place, where `n + 1` signs stand from place 3 on and a number behind
them: nothing, or a node of some kind up to another place. -/
def yields (n i : Nat) : Rule → Option ((Node → Prop) × Nat)
  | .statements | .statement | .compoundStatement =>
    if i = 0 then some (Node.DeepClass (n + 4), n + 6) else none
  | .block | .simpleStatements => if i = 3 then some (Node.Deep (n + 3), n + 6) else none
  | .simpleStatement => if i = 3 then some (Node.Deep (n + 3), n + 5) else none
  | .starExpressions | .starExpression | .expression | .disjunction | .conjunction | .inversion
  | .comparison | .bitwiseOr | .bitwiseXor | .bitwiseAnd | .shift | .sum | .term =>
    if i = 3 then some (Node.Deep (n + 2), n + 5) else none
  | .factor => if 3 ≤ i ∧ i ≤ n + 4 then some (Node.Deep (n + 5 - i), n + 5) else none
  | .power | .awaitPrimary | .primary | .atom =>
    if i = n + 4 then some (Node.Deep 1, n + 5) else none
  | _ => none

/-! ## Parsers at a place -/

/-- A source, and the number of signs that decides what its rules yield. -/
structure Reading (n : Nat) where
  source : Tokens

namespace Reading

variable {α β : Type} {n : Nat} {R : Reading n} {p q : Parse α} {f : α → Parse β} {i j k : Nat}
  {P : α → Prop} {Q : β → Prop} {s : ParseState}

/-- What is known of a rule is what it yields. -/
def Fits (known : Option (List Node × Nat)) : Option ((Node → Prop) × Nat) → Prop
  | none => known = none
  | some (P, stop) => ∃ e, P e ∧ known = some ([e], stop)

/-- A first reading that has come to a place and remembers nothing wrong. -/
structure Reaches (R : Reading n) (i : Nat) (s : ParseState) : Prop where
  source : s.source = R.source
  first : s.diagnosing = false
  pos : s.pos = i
  memo : ∀ i r known, s.memo[(i, r, false)]? = some known → Fits known (yields n i r)

/-- A form is there at a place, up to another. -/
def Finds (R : Reading n) (p : Parse α) (i j : Nat) (P : α → Prop) : Prop :=
  ∀ s, R.Reaches i s → ∃ a s', p s = .found a s' ∧ P a ∧ R.Reaches j s'

/-- A form is missing at a place. -/
def Misses (R : Reading n) (p : Parse α) (i : Nat) : Prop :=
  ∀ s, R.Reaches i s → ∃ j s', p s = .missing s' ∧ R.Reaches j s'

theorem Reaches.at (hs : R.Reaches i s) (j : Nat) : R.Reaches j { s with pos := j } :=
  ⟨hs.source, hs.first, rfl, hs.memo⟩

theorem Finds.bind (hp : R.Finds p i j P) (hf : ∀ a, P a → R.Finds (f a) j k Q) :
    R.Finds (p >>= f) i k Q := by
  intro s hs
  obtain ⟨a, s', hfound, ha, hs'⟩ := hp s hs
  obtain ⟨b, s'', hb⟩ := hf a ha s' hs'
  exact ⟨b, s'', by simp only [Bind.bind, Parse.bind, hfound, hb], hb.2⟩

theorem Finds.misses (hp : R.Finds p i j P) (hf : ∀ a, R.Misses (f a) j) :
    R.Misses (p >>= f) i := by
  intro s hs
  obtain ⟨a, s', hfound, -, hs'⟩ := hp s hs
  obtain ⟨k, s'', hb⟩ := hf a s' hs'
  exact ⟨k, s'', by simp only [Bind.bind, Parse.bind, hfound, hb], hb.2⟩

theorem Misses.bind (hp : R.Misses p i) : R.Misses (p >>= f) i := by
  intro s hs
  obtain ⟨k, s', hmissing, hs'⟩ := hp s hs
  exact ⟨k, s', by simp only [Bind.bind, Parse.bind, hmissing], hs'⟩

theorem Finds.pure {a : α} (ha : P a) : R.Finds (pure a) i i P := fun s hs => ⟨a, s, rfl, ha, hs⟩

theorem Finds.or (hp : R.Finds p i j P) : R.Finds (p <|> q) i j P := by
  intro s hs
  obtain ⟨a, s', hfound, h⟩ := hp s hs
  exact ⟨a, s', by simp only [HOrElse.hOrElse, OrElse.orElse, orElse, hfound], h⟩

/-- What is tried after a form that is missing. -/
theorem Misses.run_or (hp : R.Misses p i) (hs : R.Reaches i s) :
    ∃ s', R.Reaches i s' ∧ (p <|> q) s = q s' := by
  obtain ⟨k, s', hmissing, hs'⟩ := hp s hs
  refine ⟨_, hs'.at i, ?_⟩
  simp only [HOrElse.hOrElse, OrElse.orElse, orElse, hmissing, hs.pos]

theorem Misses.finds (hp : R.Misses p i) (hq : R.Finds q i j P) : R.Finds (p <|> q) i j P := by
  intro s hs
  obtain ⟨s', hs', hrun⟩ := hp.run_or hs
  rw [hrun]
  exact hq s' hs'

theorem Misses.or (hp : R.Misses p i) (hq : R.Misses q i) : R.Misses (p <|> q) i := by
  intro s hs
  obtain ⟨s', hs', hrun⟩ := hp.run_or hs
  rw [hrun]
  exact hq s' hs'

theorem Misses.fail : R.Misses (fail : Parse α) i := fun s hs => ⟨i, s, rfl, hs⟩

theorem Misses.first {l : List (Parse α)} (hp : R.Misses p i) (hl : R.Misses (firstOf l) i) :
    R.Misses (firstOf (p :: l)) i := hp.or hl

theorem Misses.diagnosing : R.Misses (diagnosing p) i := fun s hs =>
  ⟨i, s, by rw [Parse.diagnosing, hs.first]; rfl, hs⟩

theorem Misses.committed {q : α → Parse β} {other : Parse β} (hp : R.Misses p i)
    (ho : R.Misses other i) : R.Misses (committed p q other) i := by
  intro s hs
  obtain ⟨k, s', hmissing, hs'⟩ := hp s hs
  obtain ⟨k', s'', hmissing', h⟩ := ho _ (hs'.at i)
  exact ⟨k', s'', by simp only [Parse.committed, hmissing, hs.pos, hmissing'], h⟩

theorem Finds.ahead (hp : R.Finds p i j P) : R.Finds (ahead p) i i fun _ => True := by
  intro s hs
  obtain ⟨a, s', hfound, -, hs'⟩ := hp s hs
  exact ⟨(), _, by simp only [Parse.ahead, hfound, hs.pos], trivial, hs'.at i⟩

theorem Misses.ahead (hp : R.Misses p i) : R.Misses (ahead p) i := by
  intro s hs
  obtain ⟨k, s', hmissing, hs'⟩ := hp s hs
  exact ⟨i, _, by simp only [Parse.ahead, hmissing, hs.pos], hs'.at i⟩

theorem Misses.notAhead (hp : R.Misses p i) : R.Finds (notAhead p) i i fun _ => True := by
  intro s hs
  obtain ⟨k, s', hmissing, hs'⟩ := hp s hs
  exact ⟨(), _, by simp only [Parse.notAhead, hmissing, hs.pos], trivial, hs'.at i⟩

theorem Finds.optional (hp : R.Finds p i j P) :
    R.Finds (optional p) i j fun o => ∃ a, P a ∧ o = some a := by
  intro s hs
  obtain ⟨a, s', hfound, ha, hs'⟩ := hp s hs
  exact ⟨some a, s', by simp only [Parse.optional, hfound], ⟨a, ha, rfl⟩, hs'⟩

/-- What goes on without an optional form. -/
theorem Misses.optional {f : Option α → Parse β} (hp : R.Misses p i)
    (hf : R.Finds (f none) i j Q) : R.Finds (optional p >>= f) i j Q := by
  intro s hs
  obtain ⟨k, s', hmissing, hs'⟩ := hp s hs
  obtain ⟨b, s'', hb⟩ := hf _ (hs'.at i)
  exact ⟨b, s'', by simp only [Bind.bind, Parse.bind, Parse.optional, hmissing, hs.pos, hb], hb.2⟩

theorem finds_remaining : R.Finds remaining i i fun _ => True := fun s hs =>
  ⟨_, s, rfl, trivial, hs⟩

/-- What goes on without a repetition. -/
theorem Misses.many {f : List α → Parse β} (hp : R.Misses p i) (hf : R.Finds (f []) i j Q) :
    R.Finds (many p >>= f) i j Q := by
  refine Finds.bind (P := (· = [])) (finds_remaining.bind fun fuel _ => ?_) fun _ h => h ▸ hf
  cases fuel with
  | zero => exact .pure rfl
  | succ fuel => exact hp.optional (.pure rfl)

theorem Finds.growing {step : α → Parse α} (hp : R.Finds p i j P)
    (hstep : ∀ a, R.Misses (step a) j) : R.Finds (growing p step) i j P := by
  refine hp.bind fun a ha => finds_remaining.bind fun fuel _ => ?_
  cases fuel with
  | zero => exact .pure ha
  | succ fuel => exact (hstep a).optional (.pure ha)

/-! ## Tokens -/

/-- A token of a kind, with its characters, stands at a place. -/
def Shows (R : Reading n) (i : Nat) (kind : TokenKind) (lexeme : String) : Prop :=
  ∃ t, R.source.tokens[i]? = some t ∧ t.kind = kind ∧ t.lexeme = lexeme

variable {kind other : TokenKind} {lexeme symbol : String} {test : Token → Bool}

theorem Shows.peek (h : R.Shows i kind lexeme) :
    R.Finds peek i i fun t => t.kind = kind ∧ t.lexeme = lexeme := by
  obtain ⟨t, ht, hkind⟩ := h
  intro s hs
  have hat : s.source.tokens[s.pos]? = some t := by rw [hs.source, hs.pos, ht]
  simp only [Parse.peek, hat]
  refine ⟨t, _, rfl, hkind, ?_⟩
  split
  · exact ⟨hs.source, hs.first, hs.pos, hs.memo⟩
  · exact hs

theorem Shows.finds (h : R.Shows i kind lexeme)
    (htest : ∀ t, t.kind = kind → t.lexeme = lexeme → test t = true) :
    R.Finds (token test) i (i + 1) (·.lexeme = lexeme) := by
  intro s hs
  obtain ⟨t, s', hpeek, ht, hs'⟩ := h.peek s hs
  refine ⟨t, { s' with pos := s'.pos + 1 }, ?_, ht.2, ?_⟩
  · simp only [token, hpeek, htest t ht.1 ht.2, if_true]
  · rw [hs'.pos]
    exact hs'.at (i + 1)

theorem Shows.misses (h : R.Shows i kind lexeme)
    (htest : ∀ t, t.kind = kind → t.lexeme = lexeme → test t = false) :
    R.Misses (token test) i := by
  intro s hs
  obtain ⟨t, s', hpeek, ht, hs'⟩ := h.peek s hs
  exact ⟨i, s', by simp [token, hpeek, htest t ht.1 ht.2], hs'⟩

theorem Shows.op (h : R.Shows i kind lexeme) (hne : (kind == .op && lexeme == symbol) = false) :
    R.Misses (op symbol) i :=
  h.misses fun t hkind hlexeme => by rw [hkind, hlexeme, hne]

theorem Shows.opIn {symbols : List String} (h : R.Shows i kind lexeme)
    (hne : (kind == .op && symbols.contains lexeme) = false) : R.Misses (opIn symbols) i :=
  h.misses fun t hkind hlexeme => by rw [hkind, hlexeme, hne]

theorem Shows.word (h : R.Shows i kind lexeme)
    (hne : (kind == .keyword && lexeme == symbol) = false) : R.Misses (word symbol) i :=
  h.misses fun t hkind hlexeme => by rw [hkind, hlexeme, hne]

theorem Shows.softWord (h : R.Shows i kind lexeme)
    (hne : (kind == .name && lexeme == symbol) = false) : R.Misses (softWord symbol) i :=
  h.misses fun t hkind hlexeme => by rw [hkind, hlexeme, hne]

theorem Shows.ofKind (h : R.Shows i kind lexeme) (hne : (kind == other) = false) :
    R.Misses (ofKind other) i :=
  h.misses fun t hkind _ => by rw [hkind, hne]

theorem Shows.start (h : R.Shows i kind lexeme) (hsolid : ∀ t : Token, t.kind = kind → isSolid t) :
    R.Finds startToken i i fun _ => True := by
  intro s hs
  obtain ⟨t, s', hpeek, ht, hs'⟩ := h.peek s hs
  exact ⟨t, s', by simp only [startToken, hpeek, hsolid t ht.1, if_true], trivial, hs'⟩

theorem Shows.noStart (h : R.Shows i kind lexeme)
    (hempty : ∀ t : Token, t.kind = kind → isSolid t = false) : R.Misses startToken i := by
  intro s hs
  obtain ⟨t, s', hpeek, ht, hs'⟩ := h.peek s hs
  exact ⟨i, s', by simp [startToken, hpeek, hempty t ht.1], hs'⟩

/-! ## Rules -/

variable {r : Rule} {g : Grammar} {S : Node → Prop}

/-- What a rule yields can be remembered. -/
theorem Reaches.remember {known : Option (List Node × Nat)} (hs : R.Reaches j s)
    (hfits : Fits known (yields n i r)) :
    R.Reaches j { s with memo := s.memo.insert (i, r, false) known } := by
  refine ⟨hs.source, hs.first, hs.pos, fun i' r' known' h => ?_⟩
  rw [Std.TreeMap.getElem?_insert] at h
  split at h
  next hkey =>
    simp only [compareLex, compareOn, Ordering.then_eq_eq, Std.compare_eq_iff_eq] at hkey
    obtain rfl : r = r' := by rw [← Rule.ofNat_ctorIdx r, hkey.2.1, Rule.ofNat_ctorIdx]
    obtain rfl := hkey.1
    cases h
    exact hfits
  next => exact hs.memo i' r' known' h

/-- Exactly one node, of some kind. -/
def One (S : Node → Prop) (nodes : List Node) : Prop := ∃ e, S e ∧ nodes = [e]

theorem Reaches.key (hs : R.Reaches i s) :
    (s.pos, r, !r.shared && s.diagnosing) = (i, r, false) := by
  rw [hs.pos, hs.first, Bool.and_false]

theorem Finds.rule {p : Parse (List Node)} (hform : g r = remembered r p)
    (hr : yields n i r = some (S, j)) (hp : R.Finds p i j (One S)) :
    R.Finds (g r) i j (One S) := by
  intro s hs
  rw [hform, remembered]
  simp only [hs.key]
  cases hknown : s.memo[(i, r, false)]? with
  | some known =>
    obtain ⟨e, he, rfl⟩ : Fits known (some (S, j)) := hr ▸ hs.memo i r known hknown
    exact ⟨[e], _, rfl, ⟨e, he, rfl⟩, hs.at j⟩
  | none =>
    obtain ⟨nodes, s', hfound, ⟨e, he, rfl⟩, hs'⟩ := hp s hs
    have hfits : Fits (some ([e], s'.pos)) (yields n i r) := by
      rw [hr, hs'.pos]
      exact ⟨e, he, rfl⟩
    simp only [hfound]
    exact ⟨[e], _, rfl, ⟨e, he, rfl⟩, hs'.remember hfits⟩

theorem Misses.rule {p : Parse (List Node)} (hform : g r = remembered r p)
    (hr : yields n i r = none) (hp : R.Misses p i) : R.Misses (g r) i := by
  intro s hs
  rw [hform, remembered]
  simp only [hs.key]
  cases hknown : s.memo[(i, r, false)]? with
  | some known =>
    obtain rfl : Fits known none := hr ▸ hs.memo i r known hknown
    exact ⟨i, s, rfl, hs⟩
  | none =>
    obtain ⟨k, s', hmissing, hs'⟩ := hp s hs
    simp only [hmissing]
    exact ⟨k, _, rfl, hs'.remember (hr ▸ rfl)⟩

theorem Finds.one (hp : R.Finds (g r) i j (One S)) : R.Finds (g.one r) i j S := by
  refine hp.bind fun nodes hnodes => ?_
  obtain ⟨e, he, rfl⟩ := hnodes
  exact .pure he

theorem Finds.oneRule {p : Parse Node} (hform : g r = remembered r (single p))
    (hr : yields n i r = some (S, j)) (hp : R.Finds p i j S) : R.Finds (g.one r) i j S :=
  (Finds.rule hform hr (hp.bind fun e he => .pure ⟨e, he, rfl⟩)).one

theorem Misses.oneRule {p : Parse Node} (hform : g r = remembered r (single p))
    (hr : yields n i r = none) (hp : R.Misses p i) : R.Misses (g.one r) i :=
  (Misses.rule hform hr hp.bind).bind

end Reading

/-! ## A number behind signs -/

namespace Reading

variable {n k : Nat} {R : Reading n}

theorem finds_deep {t : Token} {label : Label} {i : Nat} {e : Node} (h : e.Deep k) :
    R.Finds (build t label [e]) i i (Node.Deep (k + 1)) :=
  fun s hs => ⟨_, s, rfl, h.mk _ _, hs⟩

/-- The tokens of a class whose body is a number behind `n + 1` signs. -/
structure IsSigned (R : Reading n) : Prop where
  intro : R.Shows 0 .keyword "class"
  title : R.Shows 1 .name "a"
  colon : R.Shows 2 .op ":"
  sign : ∀ i, 3 ≤ i → i < n + 4 → R.Shows i .op "-"
  digit : R.Shows (n + 4) .number "1"
  lineEnd : R.Shows (n + 5) .newline ""
  last : R.Shows (n + 6) .stop ""

/-- A form that yields the number with all its signs. -/
def IsOperand (R : Reading n) (p : Parse Node) : Prop :=
  R.Finds p 3 (n + 5) (Node.Deep (n + 2))

/-- A rule whose form yields the number with all its signs yields it. -/
theorem IsOperand.rule {g : Grammar} {r : Rule} {p : Parse Node}
    (hform : g r = remembered r (single p))
    (hr : yields n 3 r = some (Node.Deep (n + 2), n + 5)) (hp : R.IsOperand p) :
    R.IsOperand (g.one r) :=
  .oneRule hform hr hp

namespace IsSigned

/-! ### The number -/

theorem finds_power (h : R.IsSigned) :
    R.Finds ((grammar (k + 4)).one .power) (n + 4) (n + 5) (Node.Deep 1) := by
  have hd := h.digit
  have he := h.lineEnd
  have hnumber : R.Finds number (n + 4) (n + 5) fun _ => True := by
    refine (hd.finds fun t hkind _ => by rw [hkind]; rfl).bind fun t ht => ?_
    simp only [ht]
    exact .pure trivial
  have hatom : R.Finds ((grammar (k + 1)).one .atom) (n + 4) (n + 5) (Node.Deep 1) :=
    .oneRule rfl (if_pos rfl) <| (hd.ofKind rfl).bind.finds <|
      (hd.word rfl).bind.finds <| (hd.word rfl).bind.finds <| (hd.word rfl).bind.finds <|
      (hd.ofKind rfl).ahead.bind.finds <|
      .or (hnumber.bind fun t _ => .pure (Nat.le_add_left _ _))
  have hgenerator : R.Misses ((grammar (k + 1)).one .generator) (n + 5) :=
    .oneRule rfl rfl ((he.op rfl).bind.or .diagnosing)
  have htrailer : ∀ t left, R.Misses (trailer (grammar (k + 1)) t left) (n + 5) := fun t left =>
    .first (he.op rfl).bind <| .first hgenerator.bind <| .first (he.op rfl).bind.bind <|
      .first (he.op rfl).bind .fail
  have hstart := hd.start fun t ht => by simp [isSolid, ht]
  have hprimary : R.Finds ((grammar (k + 2)).one .primary) (n + 4) (n + 5) (Node.Deep 1) :=
    .oneRule rfl (if_pos rfl) <| hstart.bind fun t _ => hatom.growing (htrailer t)
  have hawait : R.Finds ((grammar (k + 3)).one .awaitPrimary) (n + 4) (n + 5) (Node.Deep 1) :=
    .oneRule rfl (if_pos rfl) ((hd.word rfl).bind.finds hprimary)
  exact .oneRule rfl (if_pos rfl) <| hstart.bind fun t _ => hawait.bind fun e he' =>
    (he.op rfl).bind.optional (.pure he')

/-! ### The signs -/

theorem first (h : R.IsSigned) : R.Shows 3 .op "-" := h.sign 3 (by omega) (by omega)

theorem finds_start (h : R.IsSigned) : R.Finds startToken 3 3 fun _ => True :=
  h.first.start fun t ht => by simp [isSolid, ht]

/-- **The signs are read one in the other.** -/
theorem finds_factor (h : R.IsSigned) (left : Nat) (hleft : left ≤ n + 1) :
    R.Finds ((grammar (k + left + 5)).one .factor) (n + 4 - left) (n + 5)
      (Node.Deep (left + 1)) := by
  have hyields : yields n (n + 4 - left) .factor = some (Node.Deep (left + 1), n + 5) := by
    simp only [yields]
    rw [if_pos (by omega), show n + 5 - (n + 4 - left) = left + 1 by omega]
  refine .oneRule rfl hyields ?_
  cases left with
  | zero => exact (h.digit.opIn rfl).bind.finds h.finds_power
  | succ left =>
    have hinner := h.finds_factor left (by omega)
    rw [show n + 4 - left = n + 4 - (left + 1) + 1 by omega] at hinner
    refine .or (((h.sign _ (by omega) (by omega)).finds fun t hkind hlexeme => ?_).bind
      fun t _ => hinner.bind fun e he => finds_deep he)
    rw [hkind, hlexeme]
    rfl

/-- A chain of operators that is a single operand. -/
theorem chain (h : R.IsSigned) {p : Parse Node} {symbols : List String}
    (hp : R.IsOperand p) : R.IsOperand (operatorChain p symbols) :=
  h.finds_start.bind fun _ _ => hp.growing fun _ => (h.lineEnd.opIn rfl).bind

theorem words (h : R.IsSigned) {p : Parse Node} {w : String} (hp : R.IsOperand p) :
    R.IsOperand (wordChain p w) :=
  h.finds_start.bind fun _ _ => hp.bind fun _ he => (h.lineEnd.word rfl).bind.many (.pure he)

theorem disjunction (h : R.IsSigned) :
    R.IsOperand ((grammar (k + n + 16)).one .disjunction) := by
  have he := h.lineEnd
  have hfactor := h.finds_factor (k := k) (n + 1) (Nat.le_refl _)
  rw [show n + 4 - (n + 1) = 3 by omega] at hfactor
  have hbitwise : R.IsOperand ((grammar (k + n + 12)).one .bitwiseOr) :=
    .rule rfl rfl <| h.chain <| .rule rfl rfl <| h.chain <| .rule rfl rfl <| h.chain <|
    .rule rfl rfl <| h.chain <| .rule rfl rfl <| h.chain <| .rule rfl rfl <| h.chain hfactor
  have hoperator : R.Misses comparisonOperator (n + 5) :=
    .first (he.opIn rfl).bind <| .first (he.word rfl).bind <| .first (he.word rfl).bind <|
      .first (he.word rfl).bind <| .first (he.word rfl).bind .fail
  exact .rule rfl rfl <| h.words <| .rule rfl rfl <| h.words <| .rule rfl rfl <|
    (h.first.word rfl).bind.finds <| .oneRule rfl rfl <|
    h.finds_start.bind fun _ _ => hbitwise.bind fun _ he => hoperator.bind.many (.pure he)

theorem starExpressions (h : R.IsSigned) :
    R.IsOperand ((grammar (k + n + 19)).one .starExpressions) := by
  have he := h.lineEnd
  have hplain : R.IsOperand (plainExpression (grammar (k + n + 16))) :=
    Misses.finds (h.finds_start.misses fun _ => h.disjunction.misses fun _ => (he.word rfl).bind)
      (.or h.disjunction)
  exact .rule rfl rfl <| h.finds_start.bind fun _ _ => Finds.bind (.oneRule rfl rfl <|
    (h.first.op rfl).bind.finds <| .oneRule rfl rfl <|
    Misses.diagnosing.finds <| Misses.diagnosing.finds hplain) fun _ hdeep =>
      (he.op rfl).bind.many <| (he.op rfl).optional <| .pure hdeep

/-! ### The statement -/

theorem targetPrimary (h : R.IsSigned) : R.Misses ((grammar (k + 2)).one .targetPrimary) 3 := by
  have ht := h.first
  have hatom : R.Misses ((grammar (k + 1)).one .atom) 3 :=
    .oneRule rfl (by simp [yields]) <|
      .first (ht.ofKind rfl).bind <| .first (ht.word rfl).bind <| .first (ht.word rfl).bind <|
      .first (ht.word rfl).bind <| .first (ht.ofKind rfl).ahead.bind <|
      .first (ht.ofKind rfl).bind.bind <| .first (ht.op rfl).ahead.bind <|
      .first (ht.op rfl).ahead.bind <| .first (ht.op rfl).ahead.bind <|
      .first (ht.op rfl).bind .fail
  exact .oneRule rfl rfl (h.finds_start.misses fun _ => hatom.bind.bind)

theorem attributeOrSubscript (h : R.IsSigned) :
    R.Misses (attributeOrSubscript (grammar (k + 2))) 3 :=
  .or (h.finds_start.misses fun _ => h.targetPrimary.bind)
    (h.finds_start.misses fun _ => h.targetPrimary.bind)

/-- No target of an assignment starts with a sign. -/
theorem assignment (h : R.IsSigned) : R.Misses (assignment (grammar (k + 6))) 3 := by
  have ht := h.first
  have hsingle : ∀ m, R.Misses ((grammar (m + 3)).one .singleSubscriptAttributeTarget) 3 :=
    fun m => .oneRule rfl rfl h.attributeOrSubscript
  have hstarAtom : R.Misses ((grammar (k + 3)).one .starAtom) 3 :=
    .oneRule rfl rfl <| .first (ht.ofKind rfl).bind <| .first (ht.op rfl).bind <|
      .first (ht.op rfl).bind <| .first (ht.op rfl).bind .fail
  have htarget : R.Misses ((grammar (k + 4)).one .targetWithStarAtom) 3 :=
    .oneRule rfl rfl (h.attributeOrSubscript.or hstarAtom)
  have hstar : R.Misses ((grammar (k + 5)).one .starTarget) 3 :=
    .oneRule rfl rfl ((ht.op rfl).bind.or htarget)
  have hstars : R.Misses ((grammar (k + 6)).one .starTargets) 3 :=
    .oneRule rfl rfl (hstar.bind.or (h.finds_start.misses fun _ => hstar.bind))
  have hplain : R.Misses ((grammar (k + 6)).one .singleTarget) 3 :=
    .oneRule rfl rfl ((hsingle (k + 2)).or ((ht.ofKind rfl).bind.or (ht.op rfl).bind))
  exact .or (h.finds_start.misses fun _ => (ht.ofKind rfl).bind.bind) <|
    .or (h.finds_start.misses fun _ => ((ht.op rfl).bind.or (hsingle (k + 3))).bind) <|
    .or (h.finds_start.misses fun _ => hstars.bind.bind.bind) <|
    .committed (h.finds_start.misses fun _ => hplain.bind) .diagnosing

theorem simpleStatements (h : R.IsSigned) :
    R.Finds (grammar (k + n + 21) .simpleStatements) 3 (n + 6) (One (Node.Deep (n + 3))) := by
  have hsimple : R.Finds ((grammar (k + n + 20)).one .simpleStatement) 3 (n + 5)
      (Node.Deep (n + 3)) :=
    .oneRule rfl rfl <| h.assignment.finds <| .or <|
      h.finds_start.bind fun _ _ => h.starExpressions.bind fun _ he => finds_deep he
  have hend : R.Finds newline (n + 5) (n + 6) (·.lexeme = "") :=
    h.lineEnd.finds fun t hkind _ => by rw [hkind]; rfl
  exact .rule rfl rfl <| .or <| hsimple.bind fun s hs =>
    (h.lineEnd.op rfl).notAhead.bind fun _ _ => hend.bind fun _ _ => .pure ⟨s, hs, rfl⟩

/-! ### The class -/

theorem compoundStatement (h : R.IsSigned) :
    R.Finds ((grammar (k + n + 23)).one .compoundStatement) 0 (n + 6)
      (Node.DeepClass (n + 4)) := by
  have ht := h.intro
  have hword : R.Finds (word "class") 0 1 (·.lexeme = "class") :=
    ht.finds fun t hkind hlexeme => by rw [hkind, hlexeme]; rfl
  have hname : R.Finds nameToken 1 2 (·.lexeme = "a") :=
    h.title.finds fun t hkind _ => by rw [hkind]; rfl
  have hcolon : R.Finds (op ":") 2 3 (·.lexeme = ":") :=
    h.colon.finds fun t hkind hlexeme => by rw [hkind, hlexeme]; rfl
  have harguments : R.Finds (classArguments (grammar (k + n + 22))) 2 2 (· = []) :=
    (h.colon.op rfl).bind.optional (.pure rfl)
  have hblock : R.Finds (grammar (k + n + 22) .block) 3 (n + 6) (One (Node.Deep (n + 3))) :=
    .rule rfl rfl <|
      (h.first.ofKind rfl).bind.finds <| .or h.simpleStatements
  have hclass : R.Finds (classDef (grammar (k + n + 22)) []) 0 (n + 6)
      (Node.DeepClass (n + 4)) := by
    refine Misses.diagnosing.finds <| .or <| hword.bind fun _ _ => hname.bind fun t ht =>
      harguments.bind fun bases hbases => hcolon.bind fun _ _ => hblock.bind fun body hbody => ?_
    obtain ⟨s, hs, rfl⟩ := hbody
    subst hbases
    refine fun s' hs' => ⟨_, s', rfl, ⟨?_, hs.mk _ _⟩, hs'⟩
    rw [nameOf, ht]
    rfl
  have hahead : R.Finds (word "class" >>= fun _ => pure ()) 0 1 fun _ => True :=
    hword.bind fun _ _ => .pure trivial
  exact .oneRule rfl rfl <|
    ((ht.word rfl).bind.or ((ht.op rfl).bind.or (ht.word rfl).bind)).ahead.bind.finds <|
    (ht.word rfl).ahead.bind.finds <| .or <| hahead.or.ahead.bind fun _ _ =>
      (ht.op rfl).bind.bind.bind.finds hclass

/-- No statement starts at the end of the source. -/
theorem no_statement (h : R.IsSigned) : R.Misses (grammar (k + 3) .statement) (n + 6) := by
  have ht := h.last
  have hstart : R.Misses startToken (n + 6) := ht.noStart fun t hkind => by simp [isSolid, hkind]
  have hmatch : R.Misses (matchStatement (grammar (k + 1))) (n + 6) :=
    .first (ht.softWord rfl).bind <| .first .diagnosing .fail
  have hcompound : R.Misses (Syntax.compoundStatement (grammar (k + 1))) (n + 6) :=
    .first ((ht.word rfl).bind.or ((ht.op rfl).bind.or (ht.word rfl).bind)).ahead.bind <|
    .first (ht.word rfl).ahead.bind <|
    .first ((ht.word rfl).bind.or (ht.op rfl).bind).ahead.bind <|
    .first ((ht.word rfl).or (ht.word rfl)).ahead.bind <|
    .first ((ht.word rfl).or (ht.word rfl)).ahead.bind <| .first (ht.word rfl).ahead.bind <|
    .first (ht.word rfl).ahead.bind <| .first hmatch .fail
  have himport : R.Misses importStatement (n + 6) :=
    .first (ht.word rfl).bind <| .first (ht.word rfl).bind <| .first (ht.word rfl).bind .fail
  have hwords : R.Misses (wordStatement (grammar k)) (n + 6) :=
    .first (ht.word rfl).bind <| .first himport <| .first (ht.word rfl).bind <|
    .first (ht.word rfl).bind <| .first (ht.word rfl).bind <| .first (ht.word rfl).bind <|
    .first .diagnosing <| .first hstart.bind <| .first (ht.word rfl).bind <|
    .first (ht.word rfl).bind <| .first (ht.word rfl).bind <| .first (ht.word rfl).bind <|
    .first (ht.word rfl).bind .fail
  have hassignment : R.Misses (Syntax.assignment (grammar k)) (n + 6) :=
    .or hstart.bind <| .or hstart.bind <| .or hstart.bind <| .committed hstart.bind .diagnosing
  have hsimple : R.Misses ((grammar (k + 1)).one .simpleStatement) (n + 6) :=
    (Misses.rule rfl rfl <| Misses.bind <| .first hassignment <| .first hstart.bind <|
      .first hwords .fail).bind
  exact .rule rfl rfl <| (Misses.rule rfl rfl hcompound.bind).bind.bind.or <|
    Misses.rule rfl rfl (hsimple.bind.or hsimple.bind.bind)

/-- **The module is the class.** -/
theorem moduleBody (h : R.IsSigned) : R.Finds (moduleBody (grammar (k + n + 25))) 0 (n + 7)
    fun tree => ∃ span c, Node.DeepClass (n + 4) c ∧ tree = .mk .module span [c] := by
  have hstatement : R.Finds (grammar (k + n + 24) .statement) 0 (n + 6)
      (One (Node.DeepClass (n + 4))) :=
    .rule rfl rfl <| .or <|
      h.compoundStatement.bind fun c hc => .pure ⟨c, hc, rfl⟩
  have hall : R.Finds (some1 (grammar (k + n + 24) .statement)) 0 (n + 6)
      fun found => ∃ c, Node.DeepClass (n + 4) c ∧ found = [[c]] := by
    refine hstatement.bind fun nodes hnodes => h.no_statement.many ?_
    obtain ⟨c, hc, rfl⟩ := hnodes
    exact .pure ⟨c, hc, rfl⟩
  have hstatements : R.Finds (grammar (k + n + 25) .statements) 0 (n + 6)
      (One (Node.DeepClass (n + 4))) := by
    refine .rule rfl rfl <| hall.bind fun found hfound => ?_
    obtain ⟨c, hc, rfl⟩ := hfound
    exact .pure ⟨c, hc, rfl⟩
  have hend : R.Finds (ofKind .stop) (n + 6) (n + 7) (·.lexeme = "") :=
    h.last.finds fun t hkind _ => by rw [hkind]; rfl
  refine hstatements.optional.bind fun body hbody => hend.bind fun _ _ => ?_
  obtain ⟨nodes, ⟨c, hc, rfl⟩, rfl⟩ := hbody
  exact .pure ⟨_, c, hc, rfl⟩

end IsSigned

end Reading

/-! ## The source -/

/-- So many signs, and the number with the end of the line. -/
def signs (n : Nat) : List Char := List.replicate n '-' ++ ['1', '\n']

end CodeAudit.Syntax
