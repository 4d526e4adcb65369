import CodeAudit.Proofs.Pattern.Extent

/-!
# What patterns fit

`Fits` says of each form of a pattern which pieces of a text it fits, between what stands before and
what stands behind them, and which texts it keeps. Nothing is said of an order. Trying the ways of a
pattern in order finds nothing that does not fit (`exists_fits_of_run`), and misses nothing that
does (`isSome_run_of_fits`): the fuel of a repetition is enough, since every repetition that need
not be made takes a character. So a pattern occurs in a text exactly if it fits a piece of it
(`occurs_iff`).
-/

namespace CodeAudit.Pattern

variable {α : Type}

/-! ## Fitting -/

/-- What fits a piece of text, with what stands before it, the piece, what stands behind it, and the
texts that are kept, the latest first. -/
abbrev Fitting := List Char → List Char → List Char → List Capture → Prop

/-- **One piece behind the other**, at least a number of them. Those above the number have a
character. -/
inductive Times (fits : Fitting) : Nat → Fitting
  | done {left right : List Char} : Times fits 0 left [] right []
  | must {least : Nat} {left first others right : List Char} {kept kept' : List Capture}
      (hfirst : fits left first (others ++ right) kept)
      (hothers : Times fits least (left ++ first) others right kept') :
      Times fits (least + 1) left (first ++ others) right (kept' ++ kept)
  | more {left first others right : List Char} {kept kept' : List Capture}
      (hfirst : fits left first (others ++ right) kept) (hsome : first ≠ [])
      (hothers : Times fits 0 (left ++ first) others right kept') :
      Times fits 0 left (first ++ others) right (kept' ++ kept)

/-- **Which pieces of a text a pattern fits**, and what it keeps of them. -/
def Fits : Pattern → Fitting
  | empty, _, piece, _, kept => piece = [] ∧ kept = []
  | one test, _, piece, _, kept => (∃ c, test c = true ∧ piece = [c]) ∧ kept = []
  | seq a b, left, piece, right, kept => ∃ first second keptFirst keptSecond,
      piece = first ++ second ∧ kept = keptSecond ++ keptFirst ∧
        a.Fits left first (second ++ right) keptFirst ∧
        b.Fits (left ++ first) second right keptSecond
  | alt a b, left, piece, right, kept =>
      a.Fits left piece right kept ∨ b.Fits left piece right kept
  | many least _ a, left, piece, right, kept => Times a.Fits least left piece right kept
  | maybe a, left, piece, right, kept => a.Fits left piece right kept ∨ piece = [] ∧ kept = []
  | capture i a, left, piece, right, kept =>
      ∃ inner, a.Fits left piece right inner ∧ kept = ⟨i, left.length, piece⟩ :: inner
  | textStart, left, piece, _, kept => piece = [] ∧ kept = [] ∧ left = []
  | textEnd, _, piece, right, kept => piece = [] ∧ kept = [] ∧ (right = [] ∨ right = ['\n'])
  | lineStart, left, piece, _, kept =>
      piece = [] ∧ kept = [] ∧ left.getLast?.all (· == '\n') = true
  | lineEnd, _, piece, right, kept => piece = [] ∧ kept = [] ∧ right.head?.all (· == '\n') = true
  | wordEdge, left, piece, right, kept => piece = [] ∧ kept = [] ∧
      (left.getLast?.any Text.isWord ≠ right.head?.any Text.isWord)

/-- A pattern fits a piece of a text. -/
def FitsIn (a : Pattern) (text : List Char) : Prop :=
  ∃ left piece right kept, text = left ++ piece ++ right ∧ a.Fits left piece right kept

/-- A pattern fits a start of a text that stands behind another one. -/
def FitsBehind (a : Pattern) (left text : List Char) : Prop :=
  ∃ piece right kept, text = piece ++ right ∧ a.Fits left piece right kept

/-! ## Places -/

/-- The place between two parts of a text. -/
def Place.between (left right : List Char) (captured : List Capture) : Place :=
  ⟨left.getLast?, right, left.length, captured⟩

namespace Place

variable {left right : List Char} {captured : List Capture} {c : Char}

theorem next_between : (between left (c :: right) captured).next c right =
    between (left ++ [c]) right captured := by
  simp [next, between]

theorem position_append_ne {first text : List Char} {kept : List Capture} :
    (between (left ++ first) right kept).position ≠ (between left text captured).position ↔
      first ≠ [] := by
  simp [between]

end Place

/-! ## What is found fits -/

/-- A step that goes on only over what fits. -/
def StepsOver (fits : Fitting) (step : Place → Continue α → Option α) : Prop :=
  ∀ left text captured k r, step (.between left text captured) k = some r →
    ∃ piece right kept, text = piece ++ right ∧ fits left piece right kept ∧
      k (.between (left ++ piece) right (kept ++ captured)) = some r

theorem exists_times_of_repeated {fits : Fitting} {step : Place → Continue α → Option α}
    {reluctant : Bool} (hstep : StepsOver fits step) {fuel least : Nat} {left text : List Char}
    {captured : List Capture} {k : Continue α} {r : α} (hfuel : least ≤ fuel)
    (h : repeated step reluctant fuel least (.between left text captured) k = some r) :
    ∃ piece right kept, text = piece ++ right ∧ Times fits least left piece right kept ∧
      k (.between (left ++ piece) right (kept ++ captured)) = some r := by
  induction fuel generalizing least left text captured with
  | zero =>
    obtain rfl : least = 0 := Nat.le_zero.1 hfuel
    exact ⟨[], text, [], rfl, .done, by rwa [List.append_nil]⟩
  | succ fuel ih =>
    cases least with
    | zero =>
      have hnone : k (.between left text captured) = some r →
          ∃ piece right kept, text = piece ++ right ∧ Times fits 0 left piece right kept ∧
            k (.between (left ++ piece) right (kept ++ captured)) = some r :=
        fun hk => ⟨[], text, [], rfl, .done, by rwa [List.append_nil]⟩
      have hmore : (step (.between left text captured) fun q =>
            if q.position = (Place.between left text captured).position then none
            else repeated step reluctant fuel 0 q k) = some r →
          ∃ piece right kept, text = piece ++ right ∧ Times fits 0 left piece right kept ∧
            k (.between (left ++ piece) right (kept ++ captured)) = some r := by
        intro hmore
        obtain ⟨first, text', kept, rfl, hfirst, hk⟩ := hstep _ _ _ _ _ hmore
        split at hk
        · cases hk
        next hmoved =>
          obtain ⟨others, right, kept', rfl, hothers, hk⟩ := ih (Nat.zero_le _) hk
          refine ⟨first ++ others, right, kept' ++ kept, (List.append_assoc _ _ _).symm,
            .more hfirst (Place.position_append_ne.1 hmoved) hothers, ?_⟩
          rwa [← List.append_assoc, List.append_assoc kept']
      simp only [repeated] at h
      split at h
      · exact (eq_some_of_orElse h).elim hnone hmore
      · exact (eq_some_of_orElse h).elim hmore hnone
    | succ least =>
      obtain ⟨first, text', kept, rfl, hfirst, hk⟩ := hstep _ _ _ _ _ h
      obtain ⟨others, right, kept', rfl, hothers, hk⟩ := ih (Nat.le_of_succ_le_succ hfuel) hk
      refine ⟨first ++ others, right, kept' ++ kept, (List.append_assoc _ _ _).symm,
        .must hfirst hothers, ?_⟩
      rwa [← List.append_assoc, List.append_assoc kept']

/-- **What is found fits.** -/
theorem exists_fits_of_run : ∀ a : Pattern, StepsOver a.Fits (run (α := α) a) := by
  intro a
  induction a with
  | empty =>
    intro left text captured k r h
    exact ⟨[], text, [], rfl, ⟨rfl, rfl⟩, by rw [List.append_nil]; exact h⟩
  | one test =>
    intro left text captured k r h
    simp only [run, Place.between] at h
    split at h
    next c rest =>
      split at h
      next htest =>
        exact ⟨[c], rest, [], rfl, ⟨⟨c, htest, rfl⟩, rfl⟩, by rw [← Place.next_between]; exact h⟩
      next => cases h
    next => cases h
  | seq a b iha ihb =>
    intro left text captured k r h
    obtain ⟨first, text', keptFirst, rfl, hfirst, h⟩ := iha _ _ _ _ _ h
    obtain ⟨second, right, keptSecond, rfl, hsecond, h⟩ := ihb _ _ _ _ _ h
    refine ⟨first ++ second, right, keptSecond ++ keptFirst, (List.append_assoc _ _ _).symm,
      ⟨first, second, keptFirst, keptSecond, rfl, rfl, hfirst, hsecond⟩, ?_⟩
    rwa [← List.append_assoc, List.append_assoc keptSecond]
  | alt a b iha ihb =>
    intro left text captured k r h
    rcases eq_some_of_orElse h with h | h
    · obtain ⟨piece, right, kept, htext, hfits, h⟩ := iha _ _ _ _ _ h
      exact ⟨piece, right, kept, htext, .inl hfits, h⟩
    · obtain ⟨piece, right, kept, htext, hfits, h⟩ := ihb _ _ _ _ _ h
      exact ⟨piece, right, kept, htext, .inr hfits, h⟩
  | many least reluctant a ih =>
    intro left text captured k r h
    exact exists_times_of_repeated ih (by omega) h
  | maybe a ih =>
    intro left text captured k r h
    rcases eq_some_of_orElse h with h | h
    · obtain ⟨piece, right, kept, htext, hfits, h⟩ := ih _ _ _ _ _ h
      exact ⟨piece, right, kept, htext, .inl hfits, h⟩
    · exact ⟨[], text, [], rfl, .inr ⟨rfl, rfl⟩, by simpa using h⟩
  | capture i a ih =>
    intro left text captured k r h
    obtain ⟨piece, right, kept, rfl, hfits, h⟩ := ih _ _ _ _ _ h
    refine ⟨piece, right, _, rfl, ⟨kept, hfits, rfl⟩, ?_⟩
    simpa [Place.between] using h
  | textStart | textEnd | lineStart | lineEnd | wordEdge =>
    intro left text captured k r h
    simp only [run] at h
    split at h
    next hhere =>
      refine ⟨[], text, [], rfl, ⟨rfl, rfl, ?_⟩, by simpa using h⟩
      simpa [Place.between, Place.atWordEdge] using hhere
    next => cases h

/-! ## What fits is found -/

theorem isSome_orElse {x : Option α} {y : Unit → Option α} :
    (x.orElse y).isSome = true ↔ x.isSome = true ∨ (y ()).isSome = true := by
  cases x <;> simp

/-- A step that goes on over whatever fits, if that can go on. -/
def StepsWhere (fits : Fitting) (step : Place → Continue α → Option α) : Prop :=
  ∀ left piece right kept captured k, fits left piece right kept →
    (k (.between (left ++ piece) right (kept ++ captured))).isSome = true →
    (step (.between left (piece ++ right) captured) k).isSome = true

theorem isSome_repeated_of_times {fits : Fitting} {step : Place → Continue α → Option α}
    {reluctant : Bool} (hstep : StepsWhere fits step) {fuel least : Nat}
    {left piece right : List Char} {kept captured : List Capture} {k : Continue α}
    (h : Times fits least left piece right kept) (hfuel : piece.length + least ≤ fuel)
    (hk : (k (.between (left ++ piece) right (kept ++ captured))).isSome = true) :
    (repeated step reluctant fuel least (.between left (piece ++ right) captured) k).isSome =
      true := by
  induction h generalizing fuel captured with
  | done =>
    rw [List.append_nil, List.nil_append] at hk
    cases fuel with
    | zero => exact hk
    | succ fuel =>
      simp only [repeated, List.nil_append]
      split
      · exact isSome_orElse.2 (.inl hk)
      · exact isSome_orElse.2 (.inr hk)
  | must hfirst hothers ih =>
    cases fuel with
    | zero => cases hfuel
    | succ fuel =>
      rw [List.length_append] at hfuel
      rw [List.append_assoc]
      refine hstep _ _ _ _ _ _ hfirst (ih (by omega) ?_)
      rwa [List.append_assoc, ← List.append_assoc _ _ captured]
  | @more left first others right kept kept' hfirst hsome hothers ih =>
    -- the repetition takes a character, so that the fuel which is left is enough for the others
    have hlength : 0 < first.length := List.length_pos_iff.2 hsome
    rw [List.length_append] at hfuel
    cases fuel with
    | zero => omega
    | succ fuel =>
      have hmore := hstep left first (others ++ right) kept captured
        (fun q => if q.position = (Place.between left (first ++ others ++ right) captured).position
          then none else repeated step reluctant fuel 0 q k) hfirst (by
          rw [if_neg (Place.position_append_ne.2 hsome)]
          refine ih (by omega) ?_
          rwa [List.append_assoc, ← List.append_assoc _ _ captured])
      rw [← List.append_assoc] at hmore
      simp only [repeated]
      split
      · exact isSome_orElse.2 (.inr hmore)
      · exact isSome_orElse.2 (.inl hmore)

/-- **What fits is found**, or something that is tried before it. -/
theorem isSome_run_of_fits : ∀ a : Pattern, StepsWhere a.Fits (run (α := α) a) := by
  intro a
  induction a with
  | empty =>
    rintro left piece right kept captured k ⟨rfl, rfl⟩ hk
    rwa [List.append_nil] at hk
  | one test =>
    rintro left piece right kept captured k ⟨⟨c, htest, rfl⟩, rfl⟩ hk
    show (if test c then k ((Place.between left (c :: right) captured).next c right)
      else none).isSome = true
    rw [if_pos htest, Place.next_between]
    exact hk
  | seq a b iha ihb =>
    rintro left piece right kept captured k ⟨first, second, _, _, rfl, rfl, ha, hb⟩ hk
    rw [List.append_assoc]
    refine iha _ _ _ _ _ _ ha (ihb _ _ _ _ _ _ hb ?_)
    rwa [List.append_assoc, ← List.append_assoc _ _ captured]
  | alt a b iha ihb =>
    rintro left piece right kept captured k (h | h) hk
    · exact isSome_orElse.2 (.inl (iha _ _ _ _ _ _ h hk))
    · exact isSome_orElse.2 (.inr (ihb _ _ _ _ _ _ h hk))
  | many least reluctant a ih =>
    intro left piece right kept captured k h hk
    refine isSome_repeated_of_times ih h ?_ hk
    simp only [Place.between, List.length_append]
    omega
  | maybe a ih =>
    rintro left piece right kept captured k (h | ⟨rfl, rfl⟩) hk
    · exact isSome_orElse.2 (.inl (ih _ _ _ _ _ _ h hk))
    · exact isSome_orElse.2 (.inr (by simpa using hk))
  | capture i a ih =>
    rintro left piece right kept captured k ⟨inner, hinner, rfl⟩ hk
    refine ih _ _ _ _ _ _ hinner ?_
    simpa [Place.between] using hk
  | textStart | textEnd | lineStart | lineEnd | wordEdge =>
    rintro left piece right kept captured k ⟨rfl, rfl, hhere⟩ hk
    simp only [run]
    rw [if_pos (by simpa [Place.between, Place.atWordEdge] using hhere)]
    simpa using hk

/-! ## Searching -/

section Searching

variable {a : Pattern} {left text piece right skipped : List Char} {kept : List Capture} {m : Found}
  {q : Place} {i : Nat}

theorem exists_fits_of_matchAt (h : matchAt a (.between left text []) = some (m, q)) :
    ∃ skipped piece right, text = skipped ++ piece ++ right ∧
      a.Fits (left ++ skipped) piece right m.captured := by
  obtain ⟨piece, right, kept, htext, hfits, heq⟩ := exists_fits_of_run a _ _ _ _ _ h
  obtain ⟨rfl, -⟩ := Prod.mk.inj (Option.some.inj heq)
  exact ⟨[], piece, right, htext, by simpa [Place.between] using hfits⟩

theorem exists_fits_of_searchFrom (left : List Char)
    (h : searchFrom a left.getLast? left.length text = some (m, q)) :
    ∃ skipped piece right, text = skipped ++ piece ++ right ∧
      a.Fits (left ++ skipped) piece right m.captured := by
  induction text generalizing left with
  | nil => exact exists_fits_of_matchAt h
  | cons c rest ih =>
    rw [searchFrom] at h
    split at h
    next found hfound =>
      obtain rfl := Option.some.inj h
      exact exists_fits_of_matchAt hfound
    next =>
      have hlater : searchFrom a (left ++ [c]).getLast? (left ++ [c]).length rest =
          some (m, q) := by simpa using h
      obtain ⟨skipped, piece, right, rfl, hfits⟩ := ih _ hlater
      exact ⟨c :: skipped, piece, right, rfl, by simpa using hfits⟩

/-- **What a search finds is a piece of the text that fits.** -/
theorem exists_fits_of_search (h : a.search text = some m) :
    ∃ left piece right, text = left ++ piece ++ right ∧ a.Fits left piece right m.captured := by
  obtain ⟨⟨m', q⟩, hfound, rfl⟩ := Option.map_eq_some_iff.1 h
  exact exists_fits_of_searchFrom [] hfound

theorem isSome_searchFrom_of_matchAt {before : Option Char} {position : Nat}
    (h : (matchAt a ⟨before, text, position, []⟩).isSome = true) :
    (searchFrom a before position text).isSome = true := by
  cases text with
  | nil => exact h
  | cons c rest =>
    obtain ⟨found, hfound⟩ := Option.isSome_iff_exists.1 h
    rw [searchFrom, hfound]
    rfl

theorem isSome_searchFrom_of_fits (left : List Char)
    (h : a.Fits (left ++ skipped) piece right kept) :
    (searchFrom a left.getLast? left.length (skipped ++ (piece ++ right))).isSome = true := by
  induction skipped generalizing left with
  | nil =>
    rw [List.append_nil] at h
    rw [List.nil_append]
    exact isSome_searchFrom_of_matchAt (isSome_run_of_fits a _ _ _ _ _ _ h rfl)
  | cons c skipped ih =>
    rw [List.cons_append, searchFrom]
    split
    · rfl
    · have hlater := ih (left ++ [c]) (by simpa using h)
      simpa using hlater

/-- **A pattern occurs in a text exactly if it fits a piece of it.** -/
theorem occurs_iff : a.occurs text = true ↔ a.FitsIn text := by
  rw [occurs, search, Option.isSome_map]
  constructor
  · intro h
    obtain ⟨⟨m, q⟩, hfound⟩ := Option.isSome_iff_exists.1 h
    obtain ⟨skipped, piece, right, htext, hfits⟩ := exists_fits_of_searchFrom [] hfound
    exact ⟨skipped, piece, right, _, htext, hfits⟩
  · rintro ⟨left, piece, right, kept, rfl, hfits⟩
    rw [List.append_assoc]
    exact isSome_searchFrom_of_fits [] hfits

theorem search_eq_none_iff : a.search text = none ↔ ¬ a.FitsIn text := by
  rw [← occurs_iff, occurs, Bool.not_eq_true, Option.isSome_eq_false_iff, Option.isNone_iff_eq_none]

/-! ## What is kept -/

/-- The patterns whose texts a pattern keeps under a number. -/
def keptUnder (i : Nat) : Pattern → List Pattern
  | seq a b | alt a b => a.keptUnder i ++ b.keptUnder i
  | many _ _ a | maybe a => a.keptUnder i
  | capture j a => if j = i then a :: a.keptUnder i else a.keptUnder i
  | empty | one _ | textStart | textEnd | lineStart | lineEnd | wordEdge => []

/-- Whether a pattern always keeps a text under a number. -/
def keepsAlways (i : Nat) : Pattern → Bool
  | seq a b => a.keepsAlways i || b.keepsAlways i
  | alt a b => a.keepsAlways i && b.keepsAlways i
  | many least _ a => 0 < least && a.keepsAlways i
  | capture j a => j == i || a.keepsAlways i
  | maybe _ | empty | one _ | textStart | textEnd | lineStart | lineEnd | wordEdge => false

/-- What is kept under a number fits one of the patterns for it. -/
def KeptFits (bodies : List Pattern) (i : Nat) (kept : List Capture) : Prop :=
  ∀ c ∈ kept, c.index = i → ∃ b ∈ bodies, ∃ left right inner, b.Fits left c.text right inner

theorem KeptFits.append {bodies bodies' : List Pattern} {kept kept' : List Capture}
    (h : KeptFits bodies i kept) (h' : KeptFits bodies' i kept') :
    KeptFits (bodies ++ bodies') i (kept' ++ kept) := by
  intro c hc hi
  rcases List.mem_append.1 hc with hc | hc
  · obtain ⟨b, hb, hfits⟩ := h' c hc hi
    exact ⟨b, List.mem_append_right _ hb, hfits⟩
  · obtain ⟨b, hb, hfits⟩ := h c hc hi
    exact ⟨b, List.mem_append_left _ hb, hfits⟩

theorem KeptFits.mono {bodies bodies' : List Pattern} (h : KeptFits bodies i kept)
    (hsubset : bodies ⊆ bodies') : KeptFits bodies' i kept := by
  intro c hc hi
  obtain ⟨b, hb, hfits⟩ := h c hc hi
  exact ⟨b, hsubset hb, hfits⟩

theorem keptFits_of_fits : ∀ {a : Pattern} {left piece right : List Char} {kept : List Capture},
    a.Fits left piece right kept → KeptFits (a.keptUnder i) i kept := by
  have hnil : ∀ bodies, KeptFits bodies i [] := fun _ c hc => absurd hc List.not_mem_nil
  intro a
  induction a with
  | empty => exact fun h => h.2 ▸ hnil _
  | one test => exact fun h => h.2 ▸ hnil _
  | seq a b iha ihb =>
    rintro left piece right kept ⟨_, _, _, _, -, rfl, ha, hb⟩
    exact (iha ha).append (ihb hb)
  | alt a b iha ihb =>
    rintro left piece right kept (h | h)
    · exact (iha h).mono (List.subset_append_left _ _)
    · exact (ihb h).mono (List.subset_append_right _ _)
  | many least reluctant a ih =>
    intro left piece right kept h
    induction h with
    | done => exact hnil _
    | must hfirst hothers hrest => exact ((ih hfirst).append hrest).mono (by simp [keptUnder])
    | more hfirst hsome hothers hrest => exact ((ih hfirst).append hrest).mono (by simp [keptUnder])
  | maybe a ih =>
    rintro left piece right kept (h | ⟨-, rfl⟩)
    · exact ih h
    · exact hnil _
  | capture j a ih =>
    rintro left piece right kept ⟨inner, hinner, rfl⟩ c hc hi
    rw [keptUnder]
    rcases List.mem_cons.1 hc with rfl | hc
    · rw [if_pos hi]
      exact ⟨a, List.mem_cons_self, left, right, inner, hinner⟩
    · obtain ⟨b, hb, hfits⟩ := ih hinner c hc hi
      refine ⟨b, ?_, hfits⟩
      split
      · exact List.mem_cons_of_mem _ hb
      · exact hb
  | textStart | textEnd | lineStart | lineEnd | wordEdge => exact fun h => h.2.1 ▸ hnil _

theorem exists_kept_of_fits : ∀ {a : Pattern} {left piece right : List Char} {kept : List Capture},
    a.keepsAlways i = true → a.Fits left piece right kept → ∃ c ∈ kept, c.index = i := by
  intro a
  induction a with
  | seq a b iha ihb =>
    rintro left piece right kept hkeeps ⟨_, _, _, _, -, rfl, ha, hb⟩
    rcases Bool.or_eq_true_iff.1 hkeeps with hkeeps | hkeeps
    · obtain ⟨c, hc, hi⟩ := iha hkeeps ha
      exact ⟨c, List.mem_append_right _ hc, hi⟩
    · obtain ⟨c, hc, hi⟩ := ihb hkeeps hb
      exact ⟨c, List.mem_append_left _ hc, hi⟩
  | alt a b iha ihb =>
    rintro left piece right kept hkeeps (h | h)
    · exact iha (Bool.and_eq_true_iff.1 hkeeps).1 h
    · exact ihb (Bool.and_eq_true_iff.1 hkeeps).2 h
  | many least reluctant a ih =>
    intro left piece right kept hkeeps h
    obtain ⟨hleast, hkeeps⟩ := Bool.and_eq_true_iff.1 hkeeps
    cases h with
    | must hfirst hothers =>
      obtain ⟨c, hc, hi⟩ := ih hkeeps hfirst
      exact ⟨c, List.mem_append_right _ hc, hi⟩
    | done | more => exact absurd hleast (by decide)
  | capture j a ih =>
    rintro left piece right kept hkeeps ⟨inner, hinner, rfl⟩
    rcases Bool.or_eq_true_iff.1 hkeeps with hj | hkeeps
    · exact ⟨_, List.mem_cons_self, beq_iff_eq.1 hj⟩
    · obtain ⟨c, hc, hi⟩ := ih hkeeps hinner
      exact ⟨c, List.mem_cons_of_mem _ hc, hi⟩
  | empty | one | maybe | textStart | textEnd | lineStart | lineEnd | wordEdge =>
    exact fun hkeeps => absurd hkeeps Bool.false_ne_true

/-- **What a search keeps under a number fits a pattern for it.** -/
theorem exists_fits_group (hkeeps : a.keepsAlways i = true) (h : a.search text = some m) :
    ∃ b ∈ a.keptUnder i, ∃ left right inner, b.Fits left (m.group i) right inner := by
  obtain ⟨left, piece, right, -, hfits⟩ := exists_fits_of_search h
  obtain ⟨c, hc, hi⟩ := exists_kept_of_fits hkeeps hfits
  have hfound : (m.capture? i).isSome = true :=
    List.find?_isSome.2 ⟨c, hc, beq_iff_eq.2 hi⟩
  obtain ⟨d, hd⟩ := Option.isSome_iff_exists.1 hfound
  have hgroup : m.group i = d.text := by rw [Found.group, hd]; rfl
  rw [hgroup]
  exact keptFits_of_fits hfits d (List.mem_of_find?_eq_some hd)
    (by simpa using List.find?_some hd)

end Searching

/-! ## Common patterns -/

section Common

variable {a b c : Pattern} {left piece right text : List Char} {kept : List Capture} {x : Char}
  {s : String} {test : Char → Bool} {least : Nat} {reluctant : Bool}

theorem fits_char : (char x).Fits left piece right kept ↔ piece = [x] ∧ kept = [] := by
  simp [char, Fits]

theorem fits_text :
    (Pattern.text s).Fits left piece right kept ↔ piece = s.toList ∧ kept = [] := by
  rw [Pattern.text]
  generalize s.toList = chars
  induction chars generalizing left piece kept with
  | nil => rfl
  | cons x chars ih =>
    rw [List.foldr_cons]
    constructor
    · rintro ⟨first, second, _, _, rfl, rfl, hx, hrest⟩
      obtain ⟨rfl, rfl⟩ := fits_char.1 hx
      obtain ⟨rfl, rfl⟩ := ih.1 hrest
      exact ⟨rfl, rfl⟩
    · rintro ⟨rfl, rfl⟩
      exact ⟨[x], chars, [], [], rfl, rfl, fits_char.2 ⟨rfl, rfl⟩, ih.2 ⟨rfl, rfl⟩⟩

/-- A repetition of one character fits the texts with enough characters of the kind. -/
theorem fits_many_one : (many least reluctant (one test)).Fits left piece right kept ↔
    least ≤ piece.length ∧ (∀ x ∈ piece, test x = true) ∧ kept = [] := by
  constructor
  · intro h
    change Times (one test).Fits least left piece right kept at h
    induction h with
    | done => simp
    | must hfirst hothers ih | more hfirst hsome hothers ih =>
      obtain ⟨⟨x, hx, rfl⟩, rfl⟩ := hfirst
      obtain ⟨hlength, hall, rfl⟩ := ih
      exact ⟨by simp [hlength], List.forall_mem_cons.2 ⟨hx, hall⟩, rfl⟩
  · rintro ⟨hlength, hall, rfl⟩
    change Times (one test).Fits least left piece right []
    induction piece generalizing least left with
    | nil =>
      obtain rfl : least = 0 := Nat.le_zero.1 hlength
      exact .done
    | cons x rest ih =>
      obtain ⟨hx, hall⟩ := List.forall_mem_cons.1 hall
      have hfirst : (one test).Fits left [x] (rest ++ right) [] := ⟨⟨x, hx, rfl⟩, rfl⟩
      cases least with
      | zero => exact .more hfirst (List.cons_ne_nil _ _) (ih (Nat.zero_le _) hall)
      | succ least => exact .must hfirst (ih (Nat.le_of_succ_le_succ hlength) hall)

theorem fits_blanks : blanks.Fits left piece right kept ↔
    (∀ x ∈ piece, Text.isBlank x = true) ∧ kept = [] := by
  rw [blanks, star, blank, fits_many_one]
  simp

theorem exists_cons_of_fits_identifier (h : identifier.Fits left piece right kept) :
    ∃ first rest, piece = first :: rest ∧ (first.isAlpha || first == '_') = true := by
  obtain ⟨_, rest, _, _, rfl, -, ⟨⟨first, hfirst, rfl⟩, -⟩, -⟩ := h
  exact ⟨first, rest, rfl, hfirst⟩

/-! ## One pattern behind the other -/

theorem fitsIn_iff : a.FitsIn text ↔ ∃ left rest, text = left ++ rest ∧ a.FitsBehind left rest := by
  constructor
  · rintro ⟨left, piece, right, kept, rfl, h⟩
    exact ⟨left, piece ++ right, List.append_assoc _ _ _, piece, right, kept, rfl, h⟩
  · rintro ⟨left, _, rfl, piece, right, kept, rfl, h⟩
    exact ⟨left, piece, right, kept, (List.append_assoc _ _ _).symm, h⟩

theorem fitsBehind_append : (a ++ b).FitsBehind left text ↔ ∃ piece rest kept,
    text = piece ++ rest ∧ a.Fits left piece rest kept ∧ b.FitsBehind (left ++ piece) rest := by
  constructor
  · rintro ⟨_, right, _, rfl, first, second, _, _, rfl, -, ha, hb⟩
    exact ⟨first, second ++ right, _, List.append_assoc _ _ _, ha, second, right, _, rfl, hb⟩
  · rintro ⟨first, _, _, rfl, ha, second, right, _, rfl, hb⟩
    exact ⟨first ++ second, right, _, (List.append_assoc _ _ _).symm, first, second, _, _, rfl, rfl,
      ha, hb⟩

theorem fitsBehind_assoc :
    ((a ++ b) ++ c).FitsBehind left text ↔ (a ++ (b ++ c)).FitsBehind left text := by
  simp only [fitsBehind_append]
  constructor
  · rintro ⟨_, rest, _, rfl, ⟨first, second, _, _, rfl, -, ha, hb⟩, hc⟩
    exact ⟨first, second ++ rest, _, List.append_assoc _ _ _, ha, second, rest, _, rfl, hb,
      List.append_assoc _ _ _ ▸ hc⟩
  · rintro ⟨first, _, _, rfl, ha, second, rest, _, rfl, hb, hc⟩
    exact ⟨first ++ second, rest, _, (List.append_assoc _ _ _).symm,
      ⟨first, second, _, _, rfl, rfl, ha, hb⟩, (List.append_assoc _ _ _).symm ▸ hc⟩

theorem fitsIn_assoc : ((a ++ b) ++ c).FitsIn text ↔ (a ++ (b ++ c)).FitsIn text := by
  simp only [fitsIn_iff, fitsBehind_assoc]

theorem occurs_assoc : ((a ++ b) ++ c).occurs text = (a ++ (b ++ c)).occurs text := by
  rw [Bool.eq_iff_iff, occurs_iff, occurs_iff, fitsIn_assoc]

theorem fitsBehind_char : (char x).FitsBehind left text ↔ ∃ rest, text = x :: rest := by
  simp [FitsBehind, fits_char]

/-- A pattern that fits one text, before another pattern. -/
theorem fitsBehind_append_of_fits {fixed : List Char} (h : ∀ {piece right kept},
    a.Fits left piece right kept ↔ piece = fixed ∧ kept = []) :
    (a ++ b).FitsBehind left text ↔
      ∃ rest, text = fixed ++ rest ∧ b.FitsBehind (left ++ fixed) rest := by
  rw [fitsBehind_append]
  constructor
  · rintro ⟨_, rest, _, rfl, ha, hb⟩
    obtain ⟨rfl, -⟩ := h.1 ha
    exact ⟨rest, rfl, hb⟩
  · rintro ⟨rest, rfl, hb⟩
    exact ⟨fixed, rest, [], rfl, h.2 ⟨rfl, rfl⟩, hb⟩

theorem fitsBehind_char_append : (char x ++ a).FitsBehind left text ↔
    ∃ rest, text = x :: rest ∧ a.FitsBehind (left ++ [x]) rest :=
  fitsBehind_append_of_fits fits_char

theorem fitsBehind_text_append : (Pattern.text s ++ a).FitsBehind left text ↔
    ∃ rest, text = s.toList ++ rest ∧ a.FitsBehind (left ++ s.toList) rest :=
  fitsBehind_append_of_fits fits_text

theorem fitsBehind_maybe_text_append : (maybe (Pattern.text s) ++ a).FitsBehind left text ↔
    ∃ piece rest, text = piece ++ rest ∧ (piece = s.toList ∨ piece = []) ∧
      a.FitsBehind (left ++ piece) rest := by
  simp only [fitsBehind_append, Fits, fits_text]
  grind

theorem fitsBehind_blanks_append : (blanks ++ a).FitsBehind left text ↔
    ∃ gap rest, text = gap ++ rest ∧ (∀ x ∈ gap, Text.isBlank x = true) ∧
      a.FitsBehind (left ++ gap) rest := by
  simp [fitsBehind_append, fits_blanks]

theorem fitsBehind_wordEdge_append : (wordEdge ++ a).FitsBehind left text ↔
    left.getLast?.any Text.isWord ≠ text.head?.any Text.isWord ∧ a.FitsBehind left text := by
  rw [fitsBehind_append]
  constructor
  · rintro ⟨_, rest, _, rfl, ⟨rfl, -, hedge⟩, ha⟩
    exact ⟨hedge, by rwa [List.append_nil] at ha⟩
  · rintro ⟨hedge, ha⟩
    exact ⟨[], text, [], rfl, ⟨rfl, rfl, hedge⟩, by rwa [List.append_nil]⟩

end Common

end CodeAudit.Pattern
