import CodeAudit.Pattern.Basic

/-!
# The extent of what fits a pattern

A pattern is matched by going on from place to place in a text. A place that is reached is never
before the place that was left, and it is behind it if the pattern has to take a character
(`takes`). So what is found lies in the text, and so does the start of a text that the pattern
keeps, if what is kept has a character (`keepsSome`). Both are read off the pattern.
-/

namespace CodeAudit.Pattern

/-- Whether a pattern fits only with at least one character. -/
def takes : Pattern → Bool
  | empty => false
  | one _ => true
  | seq a b => a.takes || b.takes
  | alt a b => a.takes && b.takes
  | many least _ a => 0 < least && a.takes
  | maybe _ => false
  | capture _ a => a.takes
  | textStart | textEnd | lineStart | lineEnd | wordEdge => false

/-- Whether every text that a pattern keeps under a number has at least one character. -/
def keepsSome (i : Nat) : Pattern → Bool
  | seq a b | alt a b => a.keepsSome i && b.keepsSome i
  | many _ _ a | maybe a => a.keepsSome i
  | capture j a => (j != i || a.takes) && a.keepsSome i
  | empty | one _ | textStart | textEnd | lineStart | lineEnd | wordEdge => true

/-! ## Going on from a place -/

/-- The position at which the text of a place ends. -/
def Place.stop (p : Place) : Nat := p.position + p.rest.length

/-- Whether what is kept under a number starts before the text ends. -/
def Place.Keeps (i : Nat) (p : Place) : Prop := ∀ c ∈ p.captured, c.index = i → c.start < p.stop

/-- **One place is behind another in the same text**, strictly if a character is taken, and what
is kept on the way lies in the text. -/
structure Place.Onward (i : Nat) (strict : Bool) (p q : Place) : Prop where
  le : p.position ≤ q.position
  lt : strict = true → p.position < q.position
  stop : q.stop = p.stop
  keeps : p.Keeps i → q.Keeps i

variable {i : Nat} {α : Type} {a : α}

namespace Place.Onward

variable {s s' : Bool} {p q r : Place}

theorem refl (p : Place) : p.Onward i false p := ⟨Nat.le_refl _, by simp, rfl, id⟩

theorem trans (h : p.Onward i s q) (h' : q.Onward i s' r) : p.Onward i (s || s') r where
  le := Nat.le_trans h.le h'.le
  lt := by
    intro hs
    rcases Bool.or_eq_true_iff.1 hs with hs | hs
    · exact Nat.lt_of_lt_of_le (h.lt hs) h'.le
    · exact Nat.lt_of_le_of_lt h.le (h'.lt hs)
  stop := h'.stop.trans h.stop
  keeps := h'.keeps ∘ h.keeps

theorem mono (h : p.Onward i s q) (hs : s' = true → s = true) : p.Onward i s' q :=
  { h with lt := h.lt ∘ hs }

/-- One character further. -/
theorem next {c : Char} {rest : List Char} (h : p.rest = c :: rest) :
    p.Onward i true (p.next c rest) := by
  have hstop : (p.next c rest).stop = p.stop := by
    simp only [Place.stop, Place.next, h, List.length_cons]
    omega
  refine ⟨Nat.le_succ _, fun _ => Nat.lt_succ_self _, hstop, fun hkeeps c' hc' hi => ?_⟩
  rw [hstop]
  exact hkeeps c' hc' hi

/-- What a place keeps of the way to it lies in the text, if the way has a character. -/
theorem capture (h : p.Onward i s q) {j : Nat} (hj : j = i → s = true) (text : List Char) :
    p.Onward i s { q with captured := ⟨j, p.position, text⟩ :: q.captured } := by
  refine ⟨h.le, h.lt, h.stop, fun hkeeps c hc hi => ?_⟩
  rcases List.mem_cons.1 hc with rfl | hc
  · calc p.position < q.position := h.lt (hj hi)
      _ ≤ q.stop := Nat.le_add_right _ _
  · exact h.keeps hkeeps c hc hi

end Place.Onward

/-- One of two ways was found. -/
theorem eq_some_of_orElse {x : Option α} {y : Unit → Option α} (h : x.orElse y = some a) :
    x = some a ∨ y () = some a := by
  cases x with
  | none => exact .inr h
  | some b => exact .inl h

/-- A step of a repetition that goes on strictly, or not. -/
def StepsOn (i : Nat) (s : Bool) (step : Place → Continue α → Option α) : Prop :=
  ∀ p k a, step p k = some a → ∃ q, p.Onward i s q ∧ k q = some a

/-- Where a repetition ends up. It has gone on strictly if the step does, and there had to be
one. -/
theorem exists_onward_repeated {s reluctant : Bool} {step : Place → Continue α → Option α}
    (hstep : StepsOn i s step) (fuel least : Nat) (p : Place) (k : Continue α)
    (hfuel : least ≤ fuel) (h : repeated step reluctant fuel least p k = some a) :
    ∃ q, p.Onward i (0 < least && s) q ∧ k q = some a := by
  induction fuel generalizing least p with
  | zero =>
    obtain rfl : least = 0 := Nat.le_zero.1 hfuel
    exact ⟨p, .refl p, h⟩
  | succ fuel ih =>
    cases least with
    | zero =>
      have hmore : (step p fun q => if q.position = p.position then none
          else repeated step reluctant fuel 0 q k) = some a →
          ∃ q, p.Onward i (0 < 0 && s) q ∧ k q = some a := by
        intro hmore
        obtain ⟨q, hq, hk⟩ := hstep p _ a hmore
        split at hk
        · exact absurd hk (by simp)
        · obtain ⟨r, hr, hk⟩ := ih 0 q (Nat.zero_le _) hk
          exact ⟨r, (hq.trans hr).mono (by simp), hk⟩
      simp only [repeated] at h
      split at h
      · rcases eq_some_of_orElse h with h | h
        · exact ⟨p, .refl p, h⟩
        · exact hmore h
      · rcases eq_some_of_orElse h with h | h
        · exact hmore h
        · exact ⟨p, .refl p, h⟩
    | succ least =>
      obtain ⟨q, hq, hk⟩ := hstep p _ a h
      obtain ⟨r, hr, hk⟩ := ih least q (Nat.le_of_succ_le_succ hfuel) hk
      refine ⟨r, (hq.trans hr).mono fun hs => ?_, hk⟩
      rw [Bool.and_eq_true] at hs
      rw [hs.2, Bool.true_or]

/-- **A pattern only goes on**, strictly if it takes a character. -/
theorem exists_onward : ∀ (pattern : Pattern), pattern.keepsSome i = true →
    StepsOn i pattern.takes (run (α := α) pattern) := by
  intro pattern
  induction pattern with
  | empty => exact fun _ p k a h => ⟨p, .refl p, h⟩
  | one test =>
    intro _ p k a h
    simp only [run] at h
    split at h
    next c rest hrest =>
      split at h
      · exact ⟨_, .next hrest, h⟩
      · exact absurd h (by simp)
    next => exact absurd h (by simp)
  | seq x y ihx ihy =>
    intro hkeeps p k a h
    obtain ⟨hx, hy⟩ := (Bool.and_eq_true _ _).mp hkeeps
    obtain ⟨q, hq, h⟩ := ihx hx p _ a h
    obtain ⟨r, hr, h⟩ := ihy hy q k a h
    exact ⟨r, hq.trans hr, h⟩
  | alt x y ihx ihy =>
    intro hkeeps p k a h
    obtain ⟨hx, hy⟩ := (Bool.and_eq_true _ _).mp hkeeps
    rcases eq_some_of_orElse h with h | h
    · obtain ⟨q, hq, h⟩ := ihx hx p k a h
      exact ⟨q, hq.mono fun hs => ((Bool.and_eq_true _ _).mp hs).1, h⟩
    · obtain ⟨q, hq, h⟩ := ihy hy p k a h
      exact ⟨q, hq.mono fun hs => ((Bool.and_eq_true _ _).mp hs).2, h⟩
  | many least reluctant x ih =>
    intro hkeeps p k a h
    exact exists_onward_repeated (ih hkeeps) _ least p k (by omega) h
  | maybe x ih =>
    intro hkeeps p k a h
    rcases eq_some_of_orElse h with h | h
    · obtain ⟨q, hq, h⟩ := ih hkeeps p k a h
      exact ⟨q, hq.mono (by simp [takes]), h⟩
    · exact ⟨p, .refl p, h⟩
  | capture j x ih =>
    intro hkeeps p k a h
    obtain ⟨htakes, hx⟩ := (Bool.and_eq_true _ _).mp hkeeps
    obtain ⟨q, hq, h⟩ := ih hx p _ a h
    refine ⟨_, hq.capture (fun hj => ?_) _, h⟩
    simpa [hj] using htakes
  | textStart | textEnd | lineStart | lineEnd | wordEdge =>
    intro _ p k a h
    simp only [run] at h
    split at h
    · exact ⟨p, .refl p, h⟩
    · exact absurd h (by simp)

/-! ## What is found -/

variable {pattern : Pattern} {before : Option Char} {position : Nat} {text : List Char} {m : Found}
  {q : Place}

/-- What fits at a place lies in the text. -/
theorem matchAt_extent (htakes : pattern.takes = true) (hkeeps : pattern.keepsSome i = true)
    (h : matchAt pattern ⟨before, text, position, []⟩ = some (m, q)) :
    m.start < q.position ∧ q.stop = position + text.length ∧
      ∀ c ∈ m.captured, c.index = i → c.start < position + text.length := by
  obtain ⟨q', hq, heq⟩ := exists_onward pattern hkeeps _ _ _ h
  obtain ⟨rfl, rfl⟩ := Prod.mk.inj (Option.some.inj heq)
  refine ⟨hq.lt htakes, hq.stop, ?_⟩
  have hcaptured := hq.keeps fun c hc => absurd hc List.not_mem_nil
  rwa [Place.Keeps, hq.stop] at hcaptured

/-- **Where a search from a position finds something.** -/
theorem searchFrom_extent (htakes : pattern.takes = true) (hkeeps : pattern.keepsSome i = true)
    (h : searchFrom pattern before position text = some (m, q)) :
    m.start < q.position ∧ q.stop = position + text.length ∧
      ∀ c ∈ m.captured, c.index = i → c.start < position + text.length := by
  induction text generalizing before position with
  | nil => exact matchAt_extent htakes hkeeps h
  | cons c rest ih =>
    rw [searchFrom] at h
    split at h
    next found hfound =>
      obtain rfl := Option.some.inj h
      exact matchAt_extent htakes hkeeps hfound
    next =>
      have hrest : position + 1 + rest.length = position + (c :: rest).length := by
        rw [List.length_cons]
        omega
      exact hrest ▸ ih h

/-- **What a search finds starts in the text.** -/
theorem start_lt_of_search (htakes : pattern.takes = true) (hkeeps : pattern.keepsSome i = true)
    (h : pattern.search text = some m) : m.start < text.length := by
  obtain ⟨⟨m', q⟩, hfound, rfl⟩ := Option.map_eq_some_iff.1 h
  obtain ⟨hlt, hstop, -⟩ := searchFrom_extent htakes hkeeps hfound
  rw [Place.stop] at hstop
  show m'.start < text.length
  omega

/-- **What a search keeps under a number starts in the text.** -/
theorem column_le_of_search (htakes : pattern.takes = true) (hkeeps : pattern.keepsSome i = true)
    (h : pattern.search text = some m) : m.column i ≤ text.length := by
  have hstart := start_lt_of_search htakes hkeeps h
  obtain ⟨⟨m', q⟩, hfound, rfl⟩ := Option.map_eq_some_iff.1 h
  obtain ⟨-, -, hcaptured⟩ := searchFrom_extent htakes hkeeps hfound
  rw [Found.column]
  cases hc : m'.capture? i with
  | none => exact hstart
  | some c =>
    have hindex : c.index = i := by simpa using List.find?_some hc
    have hlt := hcaptured c (List.mem_of_find?_eq_some hc) hindex
    rw [Nat.zero_add] at hlt
    exact hlt

/-- Every piece that is found from a position on starts in the text. -/
theorem start_lt_of_mem_findFrom (htakes : pattern.takes = true)
    (hkeeps : pattern.keepsSome i = true) {fuel : Nat} :
    ∀ {before position text}, m ∈ findFrom pattern fuel before position text →
      m.start < position + text.length := by
  induction fuel with
  | zero => exact fun h => absurd h List.not_mem_nil
  | succ fuel ih =>
    intro before position text h
    rw [findFrom] at h
    split at h
    · exact absurd h List.not_mem_nil
    next found q hfound =>
      obtain ⟨hlt, hstop, -⟩ := searchFrom_extent htakes hkeeps hfound
      have hfirst : found.start < position + text.length := by
        rw [Place.stop] at hstop
        omega
      split at h
      · rcases List.mem_cons.1 h with rfl | h
        · exact hfirst
        · exact hstop ▸ ih h
      · split at h
        · obtain rfl := List.mem_singleton.1 h
          exact hfirst
        next c rest hrest =>
          rcases List.mem_cons.1 h with rfl | h
          · exact hfirst
          · have hlater := ih h
            rw [Place.stop, hrest, List.length_cons] at hstop
            omega

/-- **All pieces of a text that are found start in it.** -/
theorem start_lt_of_mem_findAll (htakes : pattern.takes = true)
    (hkeeps : pattern.keepsSome i = true) (h : m ∈ pattern.findAll text) :
    m.start < text.length := by
  have hlt := start_lt_of_mem_findFrom htakes hkeeps h
  rwa [Nat.zero_add] at hlt

end CodeAudit.Pattern
