import CodeAudit.Proofs.Scan.Gathering
import Mathlib.Data.List.Induction
import Mathlib.Data.List.Sort

/-!
# The canonical form of issues

Of issues that cannot be told apart the last counts, but it stands where the first was found, and
the sort leaves issues of one rule at one place in that order. `InTurn` is what the loop over the
issues keeps (`InTurn.step`), and a stable sort turns it into the canonical form
(`canonical_dedupe`). There is only one such form (`Canonical.unique`), so whatever has the same
first and the same last issues of each kind comes to the same list.
-/

namespace CodeAudit.Scan

variable {found more known out out' : List Issue} {i j a b : Issue}

/-! ## The order of places -/

/-- An issue stands before another by its file, then its line, its column and its rule. -/
def Precedes (a b : Issue) : Prop :=
  a.filePath < b.filePath ∨ a.filePath = b.filePath ∧
    (a.line.value < b.line.value ∨ a.line.value = b.line.value ∧
      (a.column.value < b.column.value ∨ a.column.value = b.column.value ∧ a.ruleId < b.ruleId))

/-- Two issues are of one rule at one place. -/
def SamePlace (a b : Issue) : Prop :=
  a.filePath = b.filePath ∧ a.line.value = b.line.value ∧ a.column.value = b.column.value ∧
    a.ruleId = b.ruleId

theorem SamePlace.symm (h : SamePlace a b) : SamePlace b a :=
  ⟨h.1.symm, h.2.1.symm, h.2.2.1.symm, h.2.2.2.symm⟩

/-- Issues that are the same are at one place. -/
theorem samePlace_of_same (h : a.fingerprint.same b.fingerprint = true) : SamePlace a b := by
  obtain ⟨hfile, hrule, hline, hcolumn, -⟩ := Fingerprint.same_iff.1 h
  exact ⟨hfile, hline, hcolumn, hrule⟩

theorem Precedes.not_samePlace (h : Precedes a b) : ¬ SamePlace a b := by
  rintro ⟨hfile, hline, hcolumn, hrule⟩
  rcases h with h | ⟨-, h | ⟨-, h | ⟨-, h⟩⟩⟩
  · exact String.lt_irrefl _ (hfile ▸ h)
  · omega
  · omega
  · exact String.lt_irrefl _ (hrule ▸ h)

theorem Precedes.asymm (h : Precedes a b) : ¬ Precedes b a := by
  intro h'
  rcases h with h | ⟨hfile, h⟩ <;> rcases h' with h' | ⟨hfile', h'⟩
  · exact String.lt_asymm h h'
  · exact String.lt_irrefl _ (hfile' ▸ h)
  · exact String.lt_irrefl _ (hfile ▸ h')
  rcases h with h | ⟨hline, h⟩ <;> rcases h' with h' | ⟨hline', h'⟩
  · omega
  · omega
  · omega
  rcases h with h | ⟨hcolumn, h⟩ <;> rcases h' with h' | ⟨hcolumn', h'⟩
  · omega
  · omega
  · omega
  exact String.lt_asymm h h'

/-- The sort compares issues by these two. -/
theorem inOrder_iff_precedes : inOrder a b = true ↔ Precedes a b ∨ SamePlace a b := by
  rw [inOrder_iff]
  unfold Precedes SamePlace
  constructor
  · rintro (h | ⟨hfile, h | ⟨hline, h | ⟨hcolumn, h⟩⟩⟩)
    · exact .inl (.inl h)
    · exact .inl (.inr ⟨hfile, .inl h⟩)
    · exact .inl (.inr ⟨hfile, .inr ⟨hline, .inl h⟩⟩)
    · by_cases hrule : a.ruleId = b.ruleId
      · exact .inr ⟨hfile, hline, hcolumn, hrule⟩
      · have hlt : a.ruleId < b.ruleId :=
          String.not_le.1 fun hle => hrule (String.le_antisymm (String.not_lt.1 h) hle)
        exact .inl (.inr ⟨hfile, .inr ⟨hline, .inr ⟨hcolumn, hlt⟩⟩⟩)
  · rintro ((h | ⟨hfile, h | ⟨hline, h | ⟨hcolumn, h⟩⟩⟩) | ⟨hfile, hline, hcolumn, hrule⟩)
    · exact .inl h
    · exact .inr ⟨hfile, .inl h⟩
    · exact .inr ⟨hfile, .inr ⟨hline, .inl h⟩⟩
    · exact .inr ⟨hfile, .inr ⟨hline, .inr ⟨hcolumn, String.lt_asymm h⟩⟩⟩
    · exact .inr ⟨hfile, .inr ⟨hline, .inr ⟨hcolumn, hrule ▸ String.lt_irrefl _⟩⟩⟩

/-! ## The first and the last issue of a kind -/

/-- How many issues come before the first that is the same as one. -/
def firstSeen (found : List Issue) (i : Issue) : Nat :=
  found.findIdx (·.fingerprint.same i.fingerprint)

/-- The last issue that is the same as one. -/
def lastSeen? (found : List Issue) (i : Issue) : Option Issue :=
  found.reverse.find? (·.fingerprint.same i.fingerprint)

/-- To be the same as one of two issues that are the same is to be the same as the other. -/
theorem same_right_congr (h : a.fingerprint.same b.fingerprint = true) (f : Fingerprint) :
    f.same a.fingerprint = f.same b.fingerprint :=
  Bool.eq_iff_iff.2 ⟨fun hf => Fingerprint.same_trans hf h,
    fun hf => Fingerprint.same_trans hf (Fingerprint.same_symm h)⟩

theorem firstSeen_congr (h : a.fingerprint.same b.fingerprint = true) (found : List Issue) :
    firstSeen found a = firstSeen found b := by
  unfold firstSeen
  simp only [same_right_congr h]

theorem lastSeen?_congr (h : a.fingerprint.same b.fingerprint = true) (found : List Issue) :
    lastSeen? found a = lastSeen? found b := by
  unfold lastSeen?
  simp only [same_right_congr h]

theorem firstSeen_lt (h : i ∈ found) : firstSeen found i < found.length :=
  List.findIdx_lt_length_of_exists ⟨i, h, Fingerprint.same_refl _⟩

/-- What comes later does not change what was seen first. -/
theorem firstSeen_append (h : i ∈ found) (more : List Issue) :
    firstSeen (found ++ more) i = firstSeen found i := by
  have hlt := firstSeen_lt h
  unfold firstSeen at hlt ⊢
  rw [List.findIdx_append, if_pos hlt]

/-- An issue that is new is seen first where it is added. -/
theorem firstSeen_of_new (h : ∀ k ∈ found, ¬ k.fingerprint.same i.fingerprint = true) :
    firstSeen (found ++ [i]) i = found.length := by
  have hnone := List.findIdx_eq_length.2 fun k hk => Bool.eq_false_iff.2 (h k hk)
  unfold firstSeen
  rw [List.findIdx_append, hnone, if_neg (Nat.lt_irrefl _),
    List.findIdx_cons, Fingerprint.same_refl]
  simp

theorem mem_of_lastSeen? (h : lastSeen? found i = some j) : j ∈ found :=
  List.mem_reverse.1 (List.mem_of_find?_eq_some h)

/-- The last issue of its kind is the one that comes last. -/
theorem lastSeen?_snoc_self (found : List Issue) (i : Issue) :
    lastSeen? (found ++ [i]) i = some i := by
  unfold lastSeen?
  rw [List.reverse_append, List.reverse_singleton, List.singleton_append,
    List.find?_cons, Fingerprint.same_refl]

/-- One that is not the same changes nothing. -/
theorem lastSeen?_snoc (h : ¬ i.fingerprint.same j.fingerprint = true) :
    lastSeen? (found ++ [i]) j = lastSeen? found j := by
  unfold lastSeen?
  rw [List.reverse_append, List.reverse_singleton, List.singleton_append,
    List.find?_cons, Bool.eq_false_iff.2 h]

/-- What is found again as a whole leaves every last issue as it is. -/
theorem lastSeen?_append_self (h : lastSeen? found i = some j) :
    lastSeen? (found ++ found) i = some j := by
  unfold lastSeen? at h ⊢
  rw [List.reverse_append, List.find?_append, h]
  rfl

/-! ## What the loop keeps -/

/-- **Issues that stand for all that were found**: each is the last of its kind, and no kind is
left out. -/
structure Represents (found known : List Issue) : Prop where
  covers : ∀ j ∈ found, ∃ i ∈ known, i.fingerprint.same j.fingerprint = true
  last : ∀ i ∈ known, lastSeen? found i = some i

theorem Represents.mem (h : Represents found known) (hi : i ∈ known) : i ∈ found :=
  mem_of_lastSeen? (h.last i hi)

/-- How they are arranged does not matter. -/
theorem Represents.of_perm (h : Represents found known) (hperm : out.Perm known) :
    Represents found out where
  covers j hj := by
    obtain ⟨i, hi, hsame⟩ := h.covers j hj
    exact ⟨i, hperm.mem_iff.2 hi, hsame⟩
  last i hi := h.last i (hperm.mem_iff.1 hi)

/-- **Which issues they are is decided by what was found.** -/
theorem Represents.mem_of_mem (h : Represents found known) (h' : Represents found out)
    (hi : i ∈ known) : i ∈ out := by
  obtain ⟨k, hk, hsame⟩ := h'.covers i (h.mem hi)
  have hlast := h'.last k hk
  rw [lastSeen?_congr hsame, h.last i hi] at hlast
  exact Option.some.inj hlast ▸ hk

/-- After one more issue it stands for its kind, beside those that are not the same. -/
theorem eq_or_of_mem_addIssue (h : j ∈ addIssue known i) :
    j = i ∨ j ∈ known ∧ ¬ i.fingerprint.same j.fingerprint = true := by
  by_cases hany : known.any (·.fingerprint.same i.fingerprint) = true
  · rw [addIssue_of_any hany] at h
    obtain ⟨k, hk, rfl⟩ := List.mem_map.1 h
    unfold replacing
    split
    next => exact .inl rfl
    next hsame => exact .inr ⟨hk, fun hsame' => hsame (Fingerprint.same_symm hsame')⟩
  · rw [addIssue_of_not_any hany, List.mem_append, List.mem_singleton] at h
    rcases h with hj | rfl
    · refine .inr ⟨hj, fun hsame => hany ?_⟩
      exact List.any_eq_true.2 ⟨j, hj, Fingerprint.same_symm hsame⟩
    · exact .inl rfl

theorem Represents.step (h : Represents found known) (i : Issue) :
    Represents (found ++ [i]) (addIssue known i) where
  covers j hj := by
    rcases List.mem_append.1 hj with hj | hj
    · obtain ⟨k, hk, hsame⟩ := h.covers j hj
      obtain ⟨k', hk', hsame'⟩ := exists_same_of_addIssue (i := i) (.inl hk)
      exact ⟨k', hk', Fingerprint.same_trans hsame' hsame⟩
    · exact exists_same_of_addIssue (.inr (List.mem_singleton.1 hj))
  last j hj := by
    rcases eq_or_of_mem_addIssue hj with rfl | ⟨hj, hother⟩
    · exact lastSeen?_snoc_self found j
    · rw [lastSeen?_snoc hother, h.last j hj]

/-- **What the loop keeps**: the known issues stand for those that it has passed, in the order in
which their kinds were first seen. -/
structure InTurn (found known : List Issue) : Prop extends Represents found known where
  turn : known.Pairwise fun a b => firstSeen found a < firstSeen found b

/-- **One more issue**: it takes the place of the one that is the same, or comes last. -/
theorem InTurn.step (h : InTurn found known) (i : Issue) :
    InTurn (found ++ [i]) (addIssue known i) := by
  refine ⟨h.toRepresents.step i, ?_⟩
  have hseen : ∀ k ∈ known, firstSeen (found ++ [i]) k = firstSeen found k :=
    fun k hk => firstSeen_append (h.mem hk) [i]
  have hturn : known.Pairwise fun a b =>
      firstSeen (found ++ [i]) a < firstSeen (found ++ [i]) b :=
    h.turn.imp_of_mem fun ha hb hlt => by rwa [hseen _ ha, hseen _ hb]
  by_cases hany : known.any (·.fingerprint.same i.fingerprint) = true
  · rw [addIssue_of_any hany, List.pairwise_map]
    refine hturn.imp fun {a b} hlt => ?_
    have hplace : ∀ k, firstSeen (found ++ [i]) (replacing i k) = firstSeen (found ++ [i]) k := by
      intro k
      refine firstSeen_congr ?_ _
      rw [same_replacing, Fingerprint.same_refl]
    rwa [hplace, hplace]
  · rw [addIssue_of_not_any hany]
    refine List.pairwise_append.2 ⟨hturn, List.pairwise_singleton _ _, ?_⟩
    intro k hk i' hi'
    obtain rfl := List.mem_singleton.1 hi'
    have hnew : firstSeen (found ++ [i']) i' = found.length := by
      refine firstSeen_of_new fun j hj hsame => hany ?_
      obtain ⟨k', hk', hsame'⟩ := h.covers j hj
      exact List.any_eq_true.2 ⟨k', hk', Fingerprint.same_trans hsame' hsame⟩
    rw [hseen k hk, hnew]
    exact firstSeen_lt (h.mem hk)

/-- **The whole loop.** -/
theorem inTurn_gathered (found : List Issue) : InTurn found (gathered found) := by
  induction found using List.reverseRecOn with
  | nil => exact ⟨⟨by simp, by simp [gathered]⟩, .nil⟩
  | append_singleton found i ih =>
    have hstep : gathered (found ++ [i]) = addIssue (gathered found) i := by
      unfold gathered
      rw [List.foldl_append]
      rfl
    rw [hstep]
    exact ih.step i

/-! ## The canonical form -/

/-- **A stable sort keeps the order of what is equal in it**, whatever that order was. -/
theorem pairwise_mergeSort_of_pairwise {α : Type} {le : α → α → Bool} {r : α → α → Prop}
    (trans : ∀ a b c, le a b = true → le b c = true → le a c = true)
    (total : ∀ a b, (le a b || le b a) = true) {l : List α} (h : l.Pairwise r) :
    (l.mergeSort le).Pairwise fun a b => le a b = true ∧ (le b a = true → r a b) := by
  rw [List.pairwise_iff_forall_sublist]
  intro a b hab
  have hle : le a b = true :=
    List.pairwise_iff_forall_sublist.1 (List.pairwise_mergeSort trans total l) hab
  refine ⟨hle, fun hge => List.pairwise_iff_forall_sublist.1 h ?_⟩
  -- what is equal to `a` is sorted already
  have htied : (l.filter (ties le a)).Pairwise fun x y => le x y = true := by
    refine List.pairwise_of_forall_mem_list fun x hx y hy => ?_
    have hx := Bool.and_eq_true_iff.1 (List.mem_filter.1 hx).2
    have hy := Bool.and_eq_true_iff.1 (List.mem_filter.1 hy).2
    exact trans x a y hx.2 hy.1
  have hkept : ([a, b].filter (ties le a)).Sublist (l.filter (ties le a)) := by
    rw [← List.mergeSort_of_pairwise htied, mergeSort_filter trans total]
    exact hab.filter _
  have hboth : [a, b].filter (ties le a) = [a, b] := by
    refine List.filter_eq_self.2 fun x hx => ?_
    rcases List.mem_cons.1 hx with rfl | hx
    · exact ties_self total x
    · rw [List.mem_singleton.1 hx, ties, hle, hge, Bool.and_self]
  rw [hboth] at hkept
  exact hkept.trans List.filter_sublist

/-- One issue comes before another in the canonical form: by its place, and at one place by which
was first seen. -/
def ComesBefore (found : List Issue) (a b : Issue) : Prop :=
  Precedes a b ∨ SamePlace a b ∧ firstSeen found a < firstSeen found b

/-- Issues of which one comes before the other are not the same. -/
theorem ComesBefore.not_same (h : ComesBefore found a b) :
    ¬ a.fingerprint.same b.fingerprint = true := by
  intro hsame
  rcases h with h | ⟨-, h⟩
  · exact h.not_samePlace (samePlace_of_same hsame)
  · rw [firstSeen_congr hsame] at h
    exact Nat.lt_irrefl _ h

theorem ComesBefore.asymm (h : ComesBefore found a b) : ¬ ComesBefore found b a := by
  rintro (h' | ⟨hplace', h'⟩) <;> rcases h with h | ⟨hplace, h⟩
  · exact h.asymm h'
  · exact h'.not_samePlace hplace.symm
  · exact h.not_samePlace hplace'.symm
  · omega

/-- **The canonical form of the issues that were found**: no two are the same, each is the last of
its kind, no kind is left out, and they are in the order of their places, those at one place in the
order in which their kinds were first seen. -/
structure Canonical (found out : List Issue) : Prop extends Represents found out where
  apart : out.Pairwise fun a b => ¬ a.fingerprint.same b.fingerprint = true
  ordered : out.Pairwise (ComesBefore found)

/-- Issues are put together to it. -/
theorem canonical_dedupe (found : List Issue) : Canonical found (dedupe found) := by
  have hturn := inTurn_gathered found
  have hordered : (dedupe found).Pairwise (ComesBefore found) := by
    refine (pairwise_mergeSort_of_pairwise inOrder_trans inOrder_total hturn.turn).imp ?_
    rintro a b ⟨hle, hties⟩
    rcases inOrder_iff_precedes.1 hle with h | h
    · exact .inl h
    · exact .inr ⟨h, hties (inOrder_iff_precedes.2 (.inr h.symm))⟩
  exact ⟨hturn.toRepresents.of_perm (List.mergeSort_perm _ _),
    hordered.imp ComesBefore.not_same, hordered⟩

/-- **There is one canonical form.** -/
theorem Canonical.unique (h : Canonical found out) (h' : Canonical found out') : out = out' := by
  have : Std.Antisymm (ComesBefore found) := ⟨fun _ _ hab hba => absurd hba hab.asymm⟩
  have : Std.Irrefl (ComesBefore found) := ⟨fun _ haa => haa.asymm haa⟩
  exact h.ordered.eq_of_mem_iff h'.ordered fun i =>
    ⟨h.mem_of_mem h'.toRepresents, h'.mem_of_mem h.toRepresents⟩

/-- What is found twice has the form that it has when it is found once. -/
theorem Canonical.append_self (h : Canonical found out) : Canonical (found ++ found) out := by
  refine ⟨⟨fun j hj => h.covers j ?_, fun i hi => lastSeen?_append_self (h.last i hi)⟩, h.apart, ?_⟩
  · exact (List.mem_append.1 hj).elim id id
  · refine h.ordered.imp_of_mem fun {a b} ha hb hab => ?_
    refine hab.imp id fun hab => ⟨hab.1, ?_⟩
    rw [firstSeen_append (h.mem ha), firstSeen_append (h.mem hb)]
    exact hab.2

/-- **Issues are put together to their canonical form**, and to nothing else. To do it again changes
nothing, and neither does it change anything if all of them are found twice. -/
theorem dedupe_canonicalises (found : List Issue) :
    (∀ out, Canonical found out ↔ out = dedupe found) ∧
      dedupe (dedupe found) = dedupe found ∧ dedupe (found ++ found) = dedupe found := by
  refine ⟨fun out => ⟨fun h => h.unique (canonical_dedupe found), ?_⟩, ?_, ?_⟩
  · rintro rfl
    exact canonical_dedupe found
  · have hparts := dedupe_append found []
    rwa [dedupe_nil, List.append_nil, List.append_nil] at hparts
  · exact (canonical_dedupe (found ++ found)).unique (canonical_dedupe found).append_self

end CodeAudit.Scan
