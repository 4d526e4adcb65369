import CodeAudit.Proofs.Pattern.Meaning
import Mathlib.Data.List.Forall2

/-!
# Which of the pieces that fit is found

Where a pattern fits several pieces of a text, a search finds the one that stands leftmost
(`search_append`), and of those that start there the one that is tried first. A greedy repetition of
one character tries the longest run before all others, so that run is taken if what follows can go
on behind it (`run_many_one`).
-/

namespace CodeAudit.Pattern

variable {α : Type} {a : Pattern} {test : Char → Bool} {c : Char} {k : Continue α} {r : α}
  {left right rest taken : List Char} {captured : List Capture} {least fuel : Nat}

theorem run_append {b : Pattern} {p : Place} :
    run (a ++ b) p k = run a p fun q => run b q k := rfl

theorem run_maybe_of_run {p : Place} (h : run a p k = some r) : run (maybe a) p k = some r := by
  rw [run, h]
  rfl

/-! ## The longest run -/

theorem run_one_between : run (one test) (.between left (c :: rest) captured) k =
    if test c then k (.between (left ++ [c]) rest captured) else none := by
  rw [← Place.next_between]
  rfl

theorem run_one_of_stop (h : ∀ c, rest.head? = some c → test c = false) :
    run (one test) (.between left rest captured) k = none := by
  cases rest with
  | nil => rfl
  | cons c rest => rw [run_one_between, h c rfl, if_neg Bool.false_ne_true]

theorem repeated_one (htaken : ∀ c ∈ taken, test c = true)
    (hstop : ∀ c, rest.head? = some c → test c = false) (hleast : least ≤ taken.length)
    (hfuel : taken.length ≤ fuel) (hk : k (.between (left ++ taken) rest captured) = some r) :
    repeated (fun q k => run (one test) q k) false fuel least
      (.between left (taken ++ rest) captured) k = some r := by
  induction taken generalizing left fuel least with
  | nil =>
    obtain rfl : least = 0 := Nat.le_zero.1 hleast
    rw [List.append_nil] at hk
    cases fuel with
    | zero => exact hk
    | succ fuel =>
      simp only [repeated, List.nil_append, run_one_of_stop hstop]
      exact hk
  | cons c taken ih =>
    obtain ⟨hc, htaken⟩ := List.forall_mem_cons.1 htaken
    have hlater : k (.between (left ++ [c] ++ taken) rest captured) = some r := by
      rwa [List.append_assoc]
    obtain ⟨fuel, rfl⟩ : ∃ n, fuel = n + 1 := Nat.exists_eq_add_one.2 (by simp at hfuel; omega)
    rw [List.length_cons] at hleast hfuel
    cases least with
    | zero =>
      have hmoved : (Place.between (left ++ [c]) (taken ++ rest) captured).position ≠
          (Place.between left (c :: (taken ++ rest)) captured).position :=
        Place.position_append_ne.2 (List.cons_ne_nil _ _)
      simp only [repeated, List.cons_append, run_one_between, hc, if_true]
      rw [if_neg Bool.false_ne_true, if_neg hmoved, ih htaken (Nat.zero_le _) (by omega) hlater]
      rfl
    | succ least =>
      simp only [repeated, List.cons_append, run_one_between, hc, if_true]
      exact ih htaken (by omega) (by omega) hlater

/-- **A greedy repetition takes the longest run**, if what follows can go on behind it. -/
theorem run_many_one (htaken : ∀ c ∈ taken, test c = true)
    (hstop : ∀ c, rest.head? = some c → test c = false) (hleast : least ≤ taken.length)
    (hk : k (.between (left ++ taken) rest captured) = some r) :
    run (many least false (one test)) (.between left (taken ++ rest) captured) k = some r := by
  refine repeated_one htaken hstop hleast ?_ hk
  simp only [Place.between, List.length_append]
  omega

/-- The longest run is kept, if it is to be kept. -/
theorem run_capture_many_one {i : Nat} (htaken : ∀ c ∈ taken, test c = true)
    (hstop : ∀ c, rest.head? = some c → test c = false) (hleast : least ≤ taken.length)
    (hk : k (.between (left ++ taken) rest (⟨i, left.length, taken⟩ :: captured)) = some r) :
    run (capture i (many least false (one test))) (.between left (taken ++ rest) captured) k =
      some r := by
  refine run_many_one htaken hstop hleast ?_
  simpa [Place.between] using hk

/-! ## Texts in either case -/

/-- A text is another one, letter by letter, in either case. -/
def InEitherCase (word text : List Char) : Prop :=
  List.Forall₂ (fun c d => sameLetter c d = true) word text

instance (word text : List Char) : Decidable (InEitherCase word text) :=
  inferInstanceAs (Decidable (List.Forall₂ _ word text))

theorem fits_textAnyCase {s : String} {piece : List Char} {kept : List Capture} :
    (textAnyCase s).Fits left piece right kept ↔ InEitherCase s.toList piece ∧ kept = [] := by
  rw [textAnyCase]
  generalize s.toList = word
  induction word generalizing left piece kept with
  | nil => simp [Fits, InEitherCase]
  | cons c word ih =>
    rw [List.foldr_cons]
    constructor
    · rintro ⟨_, rest, _, _, rfl, rfl, ⟨⟨d, hd, rfl⟩, rfl⟩, hrest⟩
      obtain ⟨hsame, rfl⟩ := ih.1 hrest
      exact ⟨.cons hd hsame, rfl⟩
    · rintro ⟨hsame, rfl⟩
      cases hsame with
      | cons hd hsame =>
        exact ⟨[_], _, [], [], rfl, rfl, ⟨⟨_, hd, rfl⟩, rfl⟩, ih.2 ⟨hsame, rfl⟩⟩

theorem run_textAnyCase {s : String} {text : List Char} (h : InEitherCase s.toList text) :
    run (textAnyCase s) (.between left (text ++ rest) captured) k =
      k (.between (left ++ text) rest captured) := by
  rw [textAnyCase]
  generalize s.toList = word at h
  induction h generalizing left with
  | nil => rw [List.nil_append, List.append_nil]; rfl
  | @cons c d word text hd _ ih =>
    have hstep := @ih (left ++ [d])
    rw [List.append_assoc] at hstep
    rw [List.foldr_cons, List.cons_append, run, run_one_between, if_pos hd]
    exact hstep

/-! ## The leftmost place -/

theorem matchAt_eq_none_iff {text : List Char} :
    matchAt a (.between left text []) = none ↔ ¬ a.FitsBehind left text := by
  constructor
  · rintro h ⟨piece, right, kept, rfl, hfits⟩
    have hsome : (matchAt a (.between left (piece ++ right) [])).isSome = true :=
      isSome_run_of_fits a left piece right kept [] _ hfits rfl
    exact absurd hsome (by simp [h])
  · intro h
    cases hfound : matchAt a (.between left text []) with
    | none => rfl
    | some found =>
      obtain ⟨piece, right, kept, htext, hfits, -⟩ := exists_fits_of_run a _ _ _ _ _ hfound
      exact absurd ⟨piece, right, kept, htext, hfits⟩ h

theorem searchFrom_append {skipped text : List Char} {m : Found} {q : Place}
    (hnone : ∀ a' b, skipped = a' ++ b → b ≠ [] → ¬ a.FitsBehind (left ++ a') (b ++ text))
    (hfound : matchAt a (.between (left ++ skipped) text []) = some (m, q)) :
    searchFrom a left.getLast? left.length (skipped ++ text) = some (m, q) := by
  induction skipped generalizing left with
  | nil =>
    rw [List.append_nil] at hfound
    cases text with
    | nil => exact hfound
    | cons c text =>
      rw [List.nil_append, searchFrom]
      change matchAt a ⟨left.getLast?, c :: text, left.length, []⟩ = _ at hfound
      rw [hfound]
  | cons c skipped ih =>
    have hfirst : matchAt a (.between left (c :: skipped ++ text) []) = none := by
      rw [matchAt_eq_none_iff]
      simpa using hnone [] (c :: skipped) rfl (List.cons_ne_nil _ _)
    change matchAt a ⟨left.getLast?, c :: (skipped ++ text), left.length, []⟩ = none at hfirst
    rw [List.cons_append, searchFrom, hfirst]
    have hrest : ∀ a' b, skipped = a' ++ b → b ≠ [] →
        ¬ a.FitsBehind (left ++ [c] ++ a') (b ++ text) := by
      intro a' b heq hb
      rw [List.append_assoc]
      exact hnone (c :: a') b (congrArg (c :: ·) heq) hb
    simpa using ih hrest (by simpa using hfound)

/-- **A search finds what fits at the leftmost place.** -/
theorem search_append {skipped text : List Char} {m : Found} {q : Place}
    (hnone : ∀ a' b, skipped = a' ++ b → b ≠ [] → ¬ a.FitsBehind a' (b ++ text))
    (hfound : matchAt a (.between skipped text []) = some (m, q)) :
    a.search (skipped ++ text) = some m := by
  have h : searchFrom a [].getLast? [].length (skipped ++ text) = some (m, q) :=
    searchFrom_append hnone hfound
  exact congrArg (Option.map (·.1)) h

end CodeAudit.Pattern
