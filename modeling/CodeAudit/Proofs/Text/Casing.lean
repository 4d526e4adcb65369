import CodeAudit.Text.Casing

/-!
# Lower case

Turning a text into lower case goes character by character, but for the form of a small sigma, which
depends on what stands around it. Dots and slashes are the lower case of themselves and of nothing
else (`mem_lowerChar_iff`). So what stands behind one in the lower case of a text is the lower case
of what stands behind one in the text (`suffix_lower_iff`).
-/

namespace CodeAudit.Text

variable {part text word passed : List Char} {c d : Char}

/-! ## Sigmas -/

/-- One small sigma for the two that there are. -/
def joinSigma (c : Char) : Char := if c = 'ς' then 'σ' else c

/-- The lower case of one character, whatever stands around it, with one small sigma. -/
def lowerAlone (c : Char) : List Char := if c = 'Σ' then ['σ'] else (lowerChar c).map joinSigma

/-- Only the form of a sigma depends on what stands around it. -/
theorem map_joinSigma_lowerAfter (passed text : List Char) :
    (lowerAfter passed text).map joinSigma = text.flatMap lowerAlone := by
  induction text generalizing passed with
  | nil => rfl
  | cons c rest ih =>
    rw [lowerAfter, List.map_append, ih, List.flatMap_cons]
    congr 1
    by_cases hsigma : c = 'Σ'
    · rw [if_pos hsigma, lowerAlone, if_pos hsigma]
      split <;> rfl
    · rw [if_neg hsigma, lowerAlone, if_neg hsigma]

theorem joinSigma_eq {c : Char} (h : c ≠ 'ς') : joinSigma c = c := if_neg h

theorem map_joinSigma (h : 'ς' ∉ text) : text.map joinSigma = text := by
  refine (List.map_congr_left fun c hc => joinSigma_eq ?_).trans (List.map_id' text)
  rintro rfl
  exact h hc

/-- A piece without a sigma is found in the text itself. -/
theorem infix_of_infix_map (hword : 'σ' ∉ word) (h : word <:+: text.map joinSigma) :
    word <:+: text := by
  obtain ⟨left, right, heq⟩ := h
  obtain ⟨most, last, rfl, hmost, -⟩ := List.map_eq_append_iff.1 heq.symm
  obtain ⟨first, piece, rfl, -, rfl⟩ := List.map_eq_append_iff.1 hmost
  have hfinal : 'ς' ∉ piece := fun h => hword (List.mem_map_of_mem h)
  rw [map_joinSigma hfinal]
  exact ⟨first, last, rfl⟩

/-- **What is found in the lower case of a part is found in that of the whole**, a sigma apart. -/
theorem infix_lower_of_part (hpart : part <:+: text) (hfinal : 'ς' ∉ word) (hword : 'σ' ∉ word)
    (h : word <:+: lower part) : word <:+: lower text := by
  have hmapped : word <:+: (lower part).map joinSigma := by
    have := h.map joinSigma
    rwa [map_joinSigma hfinal] at this
  refine infix_of_infix_map hword (hmapped.trans ?_)
  rw [lower, map_joinSigma_lowerAfter, lower, map_joinSigma_lowerAfter]
  obtain ⟨left, right, rfl⟩ := hpart
  rw [List.flatMap_append, List.flatMap_append]
  exact ⟨_, _, rfl⟩

/-- What has a lower case without a sigma has it wherever it stands. -/
theorem lowerAfter_eq_of_eq (hfinal : 'ς' ∉ word) (hword : 'σ' ∉ word)
    (h : lowerAfter passed text = word) (passed' : List Char) :
    lowerAfter passed' text = word := by
  have hmapped : (lowerAfter passed' text).map joinSigma = word := by
    rw [map_joinSigma_lowerAfter, ← map_joinSigma_lowerAfter passed, h, map_joinSigma hfinal]
  have hsame : 'ς' ∉ lowerAfter passed' text := fun hmem =>
    hword (hmapped ▸ List.mem_map_of_mem hmem)
  rwa [map_joinSigma hsame] at hmapped

/-! ## Dots and slashes -/

/-- A character that divides a path into names, or a name. -/
def IsDivider (d : Char) : Prop := d = '.' ∨ d = '/'

namespace Table

-- A long literal can be evaluated as a list of characters, though not as a string.
set_option maxRecDepth 20000 in
theorem exists_lowerText : ∃ text, lowerEntries = readEntries (String.ofList text) ∧
    (entriesIn text).all (fun e => !e.targets.isEmpty && e.targets.all ('/'.toNat < ·)) = true :=
  ⟨_, rfl, by decide +kernel⟩

/-- Every entry of the table of lower case leads somewhere, and to no divider. -/
theorem targets_of_mem_lowerEntries {e : Entry} (he : e ∈ lowerEntries) :
    e.targets ≠ [] ∧ ∀ n ∈ e.targets, '/'.toNat < n := by
  obtain ⟨text, htext, hall⟩ := exists_lowerText
  have hentries : lowerEntries.toList = entriesIn text := by
    rw [htext, readEntries, String.toList_ofList]
  rw [← hentries, List.all_eq_true] at hall
  simpa using hall e (Array.mem_toList_iff.2 he)

/-- What the table of lower case makes of a code point is something, and has no divider. -/
theorem targets_of_lookup {n : Nat} {targets : List Nat}
    (h : lookup? lowerEntries n = some targets) :
    targets ≠ [] ∧ ∀ t ∈ targets, '/'.toNat < t := by
  obtain ⟨e, he, rfl⟩ := Option.map_eq_some_iff.1 h
  obtain ⟨hne, habove⟩ := targets_of_mem_lowerEntries (Array.mem_of_find?_eq_some he)
  unfold Entry.apply
  split
  next target htarget =>
    refine ⟨List.cons_ne_nil _ _, fun t ht => ?_⟩
    obtain rfl := List.mem_singleton.1 ht
    have := habove target (by rw [htarget]; exact List.mem_singleton_self _)
    omega
  next => exact ⟨hne, habove⟩

end Table

theorem toLower_eq_iff (hd : IsDivider d) (hc : c.toNat < 0x80) : c.toLower = d ↔ c = d := by
  have hall : ∀ n < 0x80, ((Char.ofNat n).toLower = '.' ↔ Char.ofNat n = '.') ∧
      ((Char.ofNat n).toLower = '/' ↔ Char.ofNat n = '/') := by decide
  have hc := hall c.toNat hc
  rw [Char.ofNat_toNat] at hc
  rcases hd with rfl | rfl
  · exact hc.1
  · exact hc.2

/-- **A divider is the lower case of itself and of nothing else.** -/
theorem mem_lowerChar_iff (hd : IsDivider d) : d ∈ lowerChar c ↔ c = d := by
  have hlow : d.toNat ≤ '/'.toNat := by rcases hd with rfl | rfl <;> decide
  unfold lowerChar
  split
  next hc => rw [List.mem_singleton, eq_comm, toLower_eq_iff hd hc]
  next hc =>
    have hne : c ≠ d := by
      rintro rfl
      exact hc (Nat.lt_of_le_of_lt hlow (by decide))
    split
    next targets htargets =>
      refine iff_of_false (fun hmem => ?_) hne
      obtain ⟨n, hn, rfl⟩ := List.mem_map.1 hmem
      have habove := (Table.targets_of_lookup htargets).2 n hn
      by_cases hvalid : n.isValidChar
      · have hcode : (Char.ofNat n).toNat = n := by rw [Char.ofNat, dif_pos hvalid]; rfl
        omega
      · rw [Char.ofNat, dif_neg hvalid] at hd
        rcases hd with hd | hd <;> exact absurd hd (by decide)
    next => rw [List.mem_singleton, eq_comm]

theorem lowerChar_ne_nil (c : Char) : lowerChar c ≠ [] := by
  unfold lowerChar
  split
  · exact List.cons_ne_nil _ _
  · split
    next htargets => exact mt List.map_eq_nil_iff.1 (Table.targets_of_lookup htargets).1
    next => exact List.cons_ne_nil _ _

theorem lowerChar_divider (hd : IsDivider d) : lowerChar d = [d] := by
  rcases hd with rfl | rfl <;> decide

/-- One character of a text becomes something, in which there is a divider only if it is that
divider. -/
theorem exists_lowerAfter_cons (passed : List Char) (c : Char) (rest : List Char) :
    ∃ mapped, lowerAfter passed (c :: rest) = mapped ++ lowerAfter (c :: passed) rest ∧
      mapped ≠ [] ∧ ∀ d, IsDivider d → (d ∈ mapped ↔ c = d) ∧ (c = d → mapped = [d]) := by
  refine ⟨_, rfl, ?_, fun d hd => ?_⟩
  · split
    · split <;> exact List.cons_ne_nil _ _
    · exact lowerChar_ne_nil c
  · split
    next hsigma =>
      subst hsigma
      have hne : 'Σ' ≠ d := by rcases hd with rfl | rfl <;> decide
      refine ⟨iff_of_false ?_ hne, fun heq => absurd heq hne⟩
      rcases hd with rfl | rfl <;> split <;> decide
    next => exact ⟨mem_lowerChar_iff hd, fun heq => heq ▸ lowerChar_divider (heq ▸ hd)⟩

theorem lowerAfter_divider (hd : IsDivider d) (passed rest : List Char) :
    lowerAfter passed (d :: rest) = d :: lowerAfter (d :: passed) rest := by
  obtain ⟨mapped, heq, -, hmapped⟩ := exists_lowerAfter_cons passed d rest
  rw [heq, (hmapped d hd).2 rfl]
  rfl

/-- What stands behind something is turned into lower case behind it. -/
theorem exists_lowerAfter_append (passed left right : List Char) :
    ∃ front, lowerAfter passed (left ++ right) =
      front ++ lowerAfter (left.reverse ++ passed) right := by
  induction left generalizing passed with
  | nil => exact ⟨[], rfl⟩
  | cons c left ih =>
    obtain ⟨mapped, heq, -⟩ := exists_lowerAfter_cons passed c (left ++ right)
    obtain ⟨front, hfront⟩ := ih (c :: passed)
    refine ⟨mapped ++ front, ?_⟩
    rw [List.cons_append, heq, hfront, List.reverse_cons, List.append_assoc, List.append_assoc]
    rfl

/-- A divider in the lower case of a text comes from one in the text, and so does what stands behind
it. -/
theorem exists_of_lowerAfter_eq {left right : List Char} (hd : IsDivider d)
    (h : lowerAfter passed text = left ++ d :: right) :
    ∃ before behind, text = before ++ d :: behind ∧
      lowerAfter (d :: (before.reverse ++ passed)) behind = right := by
  induction text generalizing passed left with
  | nil => exact absurd h (by simp [lowerAfter])
  | cons c rest ih =>
    obtain ⟨mapped, heq, -, hmapped⟩ := exists_lowerAfter_cons passed c rest
    rw [heq] at h
    -- The divider comes either from what is behind the first character, or from that one itself.
    rcases List.append_eq_append_iff.1 h with ⟨later, -, hrest⟩ | ⟨_ | ⟨x, own⟩, hown, hright⟩
    · obtain ⟨before, behind, rfl, hbehind⟩ := ih hrest
      exact ⟨c :: before, behind, rfl, by simpa using hbehind⟩
    · have hrest : lowerAfter (c :: passed) rest = [] ++ d :: right := hright.symm
      obtain ⟨before, behind, rfl, hbehind⟩ := ih hrest
      exact ⟨c :: before, behind, rfl, by simpa using hbehind⟩
    · obtain ⟨rfl, rfl⟩ := List.cons.inj hright
      have hc : c = d := (hmapped d hd).1.1 (hown ▸ by simp)
      rw [(hmapped d hd).2 hc] at hown
      obtain ⟨-, rfl⟩ : left = [] ∧ own = [] := by
        simpa using List.append_eq_singleton_iff.1 hown.symm
      exact ⟨[], rest, by rw [hc]; rfl, by rw [hc]; rfl⟩

theorem mem_lower_iff (hd : IsDivider d) : d ∈ lower text ↔ d ∈ text := by
  constructor
  · intro hmem
    obtain ⟨left, right, heq⟩ := List.append_of_mem hmem
    obtain ⟨before, behind, rfl, -⟩ := exists_of_lowerAfter_eq hd heq
    exact List.mem_append_right _ List.mem_cons_self
  · intro hmem
    obtain ⟨left, right, rfl⟩ := List.append_of_mem hmem
    obtain ⟨front, heq⟩ := exists_lowerAfter_append [] left (d :: right)
    rw [lower, heq, lowerAfter_divider hd]
    exact List.mem_append_right _ List.mem_cons_self

/-- Only what begins with a divider does so in lower case. -/
theorem exists_cons_of_lower_eq (hd : IsDivider d) (h : lower text = d :: word) :
    ∃ rest, text = d :: rest := by
  cases text with
  | nil => exact absurd h (by simp [lower, lowerAfter])
  | cons c rest =>
    obtain ⟨mapped, heq, hne, hmapped⟩ := exists_lowerAfter_cons [] c rest
    obtain ⟨x, more, rfl⟩ := List.exists_cons_of_ne_nil hne
    obtain rfl : x = d := (List.cons.inj (heq.symm.trans h)).1
    exact ⟨rest, by rw [(hmapped x hd).1.1 List.mem_cons_self]⟩

section

variable (hd : IsDivider d) (hfinal : 'ς' ∉ word) (hword : 'σ' ∉ word)
include hd hfinal hword

theorem lower_cons_eq_iff {rest : List Char} :
    lower (d :: rest) = d :: word ↔ lower rest = word := by
  rw [lower, lowerAfter_divider hd, List.cons_eq_cons]
  exact ⟨fun h => lowerAfter_eq_of_eq hfinal hword h.2 [],
    fun h => ⟨rfl, lowerAfter_eq_of_eq hfinal hword h [d]⟩⟩

/-- **What stands behind a divider in lower case** is the lower case of what stands behind it. -/
theorem suffix_lower_iff : d :: word <:+ lower text ↔
    ∃ behind, d :: behind <:+ text ∧ lower behind = word := by
  constructor
  · rintro ⟨left, heq⟩
    obtain ⟨before, behind, rfl, hbehind⟩ := exists_of_lowerAfter_eq hd heq.symm
    exact ⟨behind, List.suffix_append _ _, lowerAfter_eq_of_eq hfinal hword hbehind []⟩
  · rintro ⟨behind, ⟨before, rfl⟩, hbehind⟩
    obtain ⟨front, heq⟩ := exists_lowerAfter_append [] before (d :: behind)
    rw [lower, heq, lowerAfter_divider hd, lowerAfter_eq_of_eq hfinal hword hbehind]
    exact List.suffix_append _ _

end

end CodeAudit.Text
