import CodeAudit.Checks.Python

/-!
# Names that fit a pattern

A naming convention asks for a first character of one kind and further characters of another. A
pattern of this shape fits a whole name exactly if the name is of that shape
(`matchesAll_one_star`).
-/

namespace CodeAudit

namespace Pattern

variable {first more : Char → Bool}

theorem run_one_nil {α : Type} {p : Place} (h : p.rest = []) (k : Continue α) :
    run (one more) p k = none := by
  rw [run, h]

theorem run_one_cons {α : Type} {p : Place} {c : Char} {rest : List Char} (h : p.rest = c :: rest)
    (k : Continue α) : run (one more) p k = if more c then k (p.next c rest) else none := by
  rw [run, h]

/-- Accepts the end of a text. -/
def atEnd : Continue Unit := fun q => if q.rest.isEmpty then some () else none

/-- Repeating one kind of character comes to the end exactly if nothing else follows. -/
theorem isSome_repeated_one (fuel : Nat) (p : Place) (hfuel : p.rest.length ≤ fuel) :
    (repeated (fun q k => run (one more) q k) false fuel 0 p atEnd).isSome = p.rest.all more := by
  induction fuel generalizing p with
  | zero =>
    rw [repeated, atEnd, List.length_eq_zero_iff.1 (Nat.le_zero.1 hfuel)]
    rfl
  | succ fuel ih =>
    rw [repeated, if_neg Bool.false_ne_true]
    cases hrest : p.rest with
    | nil =>
      rw [run_one_nil hrest, atEnd, hrest]
      rfl
    | cons c rest =>
      have hlength : rest.length ≤ fuel := by
        rw [hrest, List.length_cons] at hfuel
        omega
      have hmoved : (p.next c rest).position ≠ p.position := Nat.succ_ne_self _
      have hend : atEnd p = none := by rw [atEnd, hrest]; rfl
      have hnone : ∀ x : Option Unit, x.orElse (fun _ => none) = x := fun x => by cases x <;> rfl
      rw [run_one_cons hrest, hend, hnone, if_neg hmoved, List.all_cons]
      cases more c with
      | false => rfl
      | true => exact ih (p.next c rest) hlength

/-- **A name fits** if its first character is of the one kind and all others are of the other. -/
theorem matchesAll_one_star {text : List Char} :
    (one first ++ star (one more)).matchesAll text = true ↔
      ∃ c rest, text = c :: rest ∧ first c = true ∧ ∀ d ∈ rest, more d = true := by
  have hrun : (one first ++ star (one more)).matchesAll text =
      (run (one first) (Place.start text) fun q => run (star (one more)) q atEnd).isSome := rfl
  rw [hrun]
  cases text with
  | nil =>
    rw [run_one_nil rfl]
    simp
  | cons c rest =>
    have hstar : (run (star (one more)) ((Place.start (c :: rest)).next c rest) atEnd).isSome =
        rest.all more := isSome_repeated_one _ _ (Nat.le_succ _)
    rw [run_one_cons (p := Place.start (c :: rest)) rfl]
    constructor
    · intro h
      split at h
      next hfirst => exact ⟨c, rest, rfl, hfirst, List.all_eq_true.1 (hstar ▸ h)⟩
      next => exact Bool.noConfusion h
    · rintro ⟨_, _, heq, hfirst, hmore⟩
      obtain ⟨rfl, rfl⟩ := List.cons.inj heq
      rw [if_pos hfirst, hstar]
      exact List.all_eq_true.2 hmore

end Pattern

namespace Checks

open Pattern

/-- A name of ASCII letters and digits that begins with a capital. -/
theorem isUpperCamelCase_iff {name : List Char} : isUpperCamelCase name = true ↔
    ∃ c rest, name = c :: rest ∧ c.isUpper = true ∧ ∀ d ∈ rest, d.isAlphanum = true :=
  matchesAll_one_star

end Checks

end CodeAudit
