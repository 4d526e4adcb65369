import CodeAudit.Checks.Repetition
import Mathlib.Data.Finset.Card
import Mathlib.Data.List.Perm.Subperm
import Mathlib.Order.Interval.Finset.Nat

/-!
# Repeated blocks

A line repeats a block if the four lines from there on stand in the file before. The check gathers
blocks of equal text in groups, which are the blocks of equal lines (`joinedAt_inj`), and reports in
each group all lines but the first, up to a limit. Every line with a block is in one group, whose
first line is the first with that block (`mem_repeats_iff`), and no line is listed twice
(`subperm_repeats`), so that what is reported are exactly the repetitions, or as many of them as may
be reported (`repetitions_reported_up_to_limit`).
-/

namespace CodeAudit.Checks.Repetition

variable {lines block : List (List Char)} {text : List Char} {k m n : Nat}

/-! ## Lines that repeat a block -/

/-- The block at a line: the four lines from there on, as they are compared. -/
def blockAt (lines : List (List Char)) (n : Nat) : List (List Char) :=
  ((lines.map normalLine).drop (n - 1)).take 4

/-- The file has four lines from a line on, none of them is empty, and together they have at least
eighty characters. -/
def Eligible (lines : List (List Char)) (n : Nat) : Prop :=
  (1 ≤ n ∧ n + 3 ≤ lines.length) ∧ (∀ line ∈ blockAt lines n, line ≠ []) ∧
    80 ≤ (blockAt lines n).flatten.length

/-- **A line repeats a block** that begins at an earlier one. -/
def Duplicate (lines : List (List Char)) (n : Nat) : Prop :=
  Eligible lines n ∧ ∃ m < n, 1 ≤ m ∧ blockAt lines m = blockAt lines n

/-- A line is the first with the block of another. -/
def IsFirst (lines : List (List Char)) (first n : Nat) : Prop :=
  1 ≤ first ∧ blockAt lines first = blockAt lines n ∧
    ∀ m, 1 ≤ m → blockAt lines m = blockAt lines n → first ≤ m

instance (lines : List (List Char)) (n : Nat) : Decidable (Eligible lines n) :=
  inferInstanceAs (Decidable (_ ∧ _ ∧ _))

instance (lines : List (List Char)) (n : Nat) : Decidable (Duplicate lines n) :=
  inferInstanceAs (Decidable (_ ∧ _))

/-- The lines that repeat a block. -/
def duplicates (lines : List (List Char)) : Finset Nat :=
  (Finset.Icc 1 lines.length).filter (Duplicate lines)

theorem length_blockAt (hpos : 1 ≤ n) :
    (blockAt lines n).length = 4 ↔ n + 3 ≤ lines.length := by
  rw [blockAt, List.length_take, List.length_drop, List.length_map]
  omega

/-- Whether a block counts is decided by its lines. -/
theorem Eligible.of_blockAt_eq (h : Eligible lines n) (hpos : 1 ≤ m)
    (heq : blockAt lines m = blockAt lines n) : Eligible lines m := by
  obtain ⟨⟨hpos', hwhole⟩, hsolid, hlong⟩ := h
  refine ⟨⟨hpos, ?_⟩, heq ▸ hsolid, heq ▸ hlong⟩
  rw [← length_blockAt hpos, heq, length_blockAt hpos']
  exact hwhole

theorem mem_duplicates : n ∈ duplicates lines ↔ Duplicate lines n := by
  rw [duplicates, Finset.mem_filter, Finset.mem_Icc, and_iff_right_iff_imp]
  rintro ⟨⟨⟨hpos, hwhole⟩, -⟩, -⟩
  omega

/-! ## The text of a block -/

/-- The lines of a block as one text. -/
def joinedAt (lines : List (List Char)) (n : Nat) : List Char := joined (blockAt lines n)

/-- If the word that is being read has no blanks, neither have those that follow. -/
theorem not_isBlank_of_mem_go {text current word : List Char}
    (hcurrent : ∀ c ∈ current, Text.isBlank c = false) (h : word ∈ Text.words.go current text) :
    ∀ c ∈ word, Text.isBlank c = false := by
  have hnil : ∀ c ∈ ([] : List Char), Text.isBlank c = false :=
    fun _ hc => absurd hc List.not_mem_nil
  induction text generalizing current with
  | nil =>
    rw [Text.words.go] at h
    split at h
    · exact absurd h List.not_mem_nil
    · obtain rfl := List.mem_singleton.1 h
      exact fun c hc => hcurrent c (List.mem_reverse.1 hc)
  | cons c rest ih =>
    rw [Text.words.go] at h
    split at h
    next =>
      split at h
      · exact ih hnil h
      · rcases List.mem_cons.1 h with rfl | h
        · exact fun d hd => hcurrent d (List.mem_reverse.1 hd)
        · exact ih hnil h
    next hc => exact ih (List.forall_mem_cons.2 ⟨Bool.eq_false_iff.2 hc, hcurrent⟩) h

/-- There are no blanks in a word. -/
theorem not_isBlank_of_mem_words {text word : List Char} (h : word ∈ Text.words text) :
    ∀ c ∈ word, Text.isBlank c = false :=
  not_isBlank_of_mem_go (fun _ hc => absurd hc List.not_mem_nil) h

/-- A line as it is compared has no line feed. -/
theorem newline_not_mem_normalLine (line : List Char) : '\n' ∉ normalLine line := by
  have hwords : ∀ word ∈ Text.words line, '\n' ∉ word := fun word hword hmem =>
    absurd (not_isBlank_of_mem_words hword _ hmem) (by decide)
  unfold normalLine
  generalize Text.words line = words at hwords ⊢
  induction words with
  | nil => exact List.not_mem_nil
  | cons word words ih =>
    obtain ⟨hword, hrest⟩ := List.forall_mem_cons.1 hwords
    cases words with
    | nil => rwa [List.intercalate_singleton]
    | cons next words =>
      rw [List.intercalate_cons_cons, List.mem_append, List.mem_append, List.mem_singleton]
      rintro ((hmem | heq) | hmem)
      · exact hword hmem
      · exact absurd heq (by decide)
      · exact ih hrest hmem

/-- **Blocks can be told by their texts.** -/
theorem joinedAt_inj (hm : Eligible lines m) (hn : Eligible lines n) :
    joinedAt lines m = joinedAt lines n ↔ blockAt lines m = blockAt lines n := by
  refine ⟨fun h => ?_, fun h => by rw [joinedAt, h, joinedAt]⟩
  have hsplit : ∀ {k}, Eligible lines k →
      (joinedAt lines k).splitOn '\n' = blockAt lines k := by
    intro k hk
    refine List.splitOn_intercalate '\n' (fun line hline => ?_) ?_
    · obtain ⟨original, -, rfl⟩ :=
        List.mem_map.1 (List.mem_of_mem_drop (List.mem_of_mem_take hline))
      exact newline_not_mem_normalLine original
    · exact List.ne_nil_of_length_pos (by rw [(length_blockAt hk.1.1).2 hk.1.2]; decide)
  rw [← hsplit hm, ← hsplit hn, h]

/-! ## The blocks of a file -/

theorem counts_iff : counts block = true ↔
    (∀ line ∈ block, line ≠ []) ∧ 80 ≤ block.flatten.length := by
  simp [counts, leastLength]

/-- **The blocks from a line on** stand with the numbers of their lines. -/
theorem mem_blocksFrom_iff : (text, k) ∈ blocksFrom n lines ↔
    n ≤ k ∧ text = joined ((lines.drop (k - n)).take 4) ∧
      ((lines.drop (k - n)).take 4).length = 4 ∧ counts ((lines.drop (k - n)).take 4) = true := by
  induction lines generalizing n with
  | nil =>
    rw [blocksFrom, List.drop_nil, List.take_nil]
    constructor
    · exact fun h => absurd h List.not_mem_nil
    · rintro ⟨-, -, hlength, -⟩
      exact absurd hlength (by simp)
  | cons line rest ih =>
    -- the block of the first line, and those of the lines behind it
    have hlater : n + 1 ≤ k → (line :: rest).drop (k - n) = rest.drop (k - (n + 1)) := by
      intro hle
      rw [show k - n = k - (n + 1) + 1 by omega, List.drop_succ_cons]
    have hcases : (text, k) ∈ blocksFrom n (line :: rest) ↔
        (k = n ∧ text = joined ((line :: rest).take 4) ∧ ((line :: rest).take 4).length = 4 ∧
          counts ((line :: rest).take 4) = true) ∨ (text, k) ∈ blocksFrom (n + 1) rest := by
      rw [blocksFrom]
      split
      next h =>
        rw [List.mem_cons, Prod.mk.injEq]
        refine or_congr_left ⟨?_, fun h => ⟨h.2.1, h.1⟩⟩
        rintro ⟨rfl, rfl⟩
        exact ⟨rfl, rfl, h⟩
      next h =>
        refine (or_iff_right ?_).symm
        rintro ⟨-, -, hblock⟩
        exact h hblock
    rw [hcases, ih]
    constructor
    · rintro (⟨rfl, hblock⟩ | ⟨hle, hblock⟩)
      · rw [Nat.sub_self, List.drop_zero]
        exact ⟨Nat.le_refl _, hblock⟩
      · rw [← hlater hle] at hblock
        exact ⟨by omega, hblock⟩
    · rintro ⟨hle, hblock⟩
      rcases Nat.eq_or_lt_of_le hle with rfl | hlt
      · rw [Nat.sub_self, List.drop_zero] at hblock
        exact .inl ⟨rfl, hblock⟩
      · rw [hlater hlt] at hblock
        exact .inr ⟨hlt, hblock⟩

/-- They come in the order of their lines. -/
theorem pairwise_blocksFrom (n : Nat) (lines : List (List Char)) :
    (blocksFrom n lines).Pairwise fun a b => a.2 < b.2 := by
  induction lines generalizing n with
  | nil => exact .nil
  | cons line rest ih =>
    rw [blocksFrom]
    split
    · refine .cons (fun b hb => ?_) (ih (n + 1))
      exact (mem_blocksFrom_iff.1 hb).1
    · exact ih (n + 1)

/-- **The blocks of a file that count are those at its eligible lines.** -/
theorem mem_blocks_iff : (text, n) ∈ blocks lines ↔
    Eligible lines n ∧ text = joinedAt lines n := by
  rw [blocks, mem_blocksFrom_iff, counts_iff]
  constructor
  · rintro ⟨hpos, htext, hlength, hcounts⟩
    exact ⟨⟨⟨hpos, (length_blockAt hpos).1 hlength⟩, hcounts⟩, htext⟩
  · rintro ⟨⟨⟨hpos, hwhole⟩, hcounts⟩, htext⟩
    exact ⟨hpos, htext, (length_blockAt hpos).2 hwhole, hcounts⟩

/-! ## Groups -/

section Groups

variable {α : Type} [BEq α] {list : List (α × Nat)}

/-- The numbers that stand with something that stood with an earlier one, each with the first. -/
def repeats (list : List (α × Nat)) : List (Nat × Nat) :=
  (grouped list).flatMap fun g => g.2.map (·, g.1)

theorem repeats_nil : repeats ([] : List (α × Nat)) = [] := by
  rw [repeats, grouped]
  rfl

theorem repeats_cons (a : α) (n : Nat) (rest : List (α × Nat)) : repeats ((a, n) :: rest) =
    (rest.filter (·.1 == a)).map (fun e => (e.2, n)) ++ repeats (others a rest) := by
  rw [repeats, grouped, List.flatMap_cons, List.map_map]
  rfl

/-- **No number is listed more often than it stands in the list.** -/
theorem subperm_repeats (list : List (α × Nat)) :
    ((repeats list).map (·.1)).Subperm (list.map (·.2)) := by
  induction list using grouped.induct with
  | case1 => rw [repeats_nil]; exact List.Subperm.refl _
  | case2 a n rest ih =>
    rw [repeats_cons, List.map_append, List.map_map, List.map_cons]
    have hparts : ((rest.filter (·.1 == a)).map (·.2) ++ (others a rest).map (·.2)).Perm
        (rest.map (·.2)) := by
      rw [← List.map_append]
      exact (List.filter_append_perm (·.1 == a) rest).map _
    refine .trans ?_ (List.sublist_cons_self n (rest.map (·.2))).subperm
    refine .trans ?_ hparts.subperm
    exact (List.subperm_append_left _).2 ih

/-- **A number is listed with the first of its group**, if it is not the first itself. -/
theorem mem_repeats_iff [LawfulBEq α] (hsorted : list.Pairwise fun a b => a.2 < b.2) :
    (m, k) ∈ repeats list ↔ k < m ∧ ∃ a, (a, m) ∈ list ∧ (a, k) ∈ list ∧
      ∀ j, (a, j) ∈ list → k ≤ j := by
  induction list using grouped.induct with
  | case1 => simp [repeats_nil]
  | case2 a n rest ih =>
    obtain ⟨hfirst, hrest⟩ := List.pairwise_cons.1 hsorted
    have hothers : ∀ {b j}, (b, j) ∈ others a rest ↔ (b, j) ∈ rest ∧ b ≠ a := by
      intro b j
      rw [others, List.mem_filter, bne_iff_ne]
    rw [repeats_cons, List.mem_append, ih (hrest.sublist List.filter_sublist)]
    constructor
    · rintro (h | ⟨hlt, b, hm, hk, hleast⟩)
      · obtain ⟨⟨b, m'⟩, hmem, heq⟩ := List.mem_map.1 h
        obtain ⟨rfl, rfl⟩ := Prod.mk.inj heq
        obtain ⟨hin, hb⟩ := List.mem_filter.1 hmem
        obtain rfl : b = a := beq_iff_eq.1 hb
        refine ⟨hfirst _ hin, b, List.mem_cons_of_mem _ hin, List.mem_cons_self, ?_⟩
        intro j hj
        rcases List.mem_cons.1 hj with heq | hj
        · exact (Prod.mk.inj heq).2.ge
        · exact (hfirst _ hj).le
      · obtain ⟨hm, hb⟩ := hothers.1 hm
        refine ⟨hlt, b, List.mem_cons_of_mem _ hm, List.mem_cons_of_mem _ (hothers.1 hk).1, ?_⟩
        intro j hj
        rcases List.mem_cons.1 hj with heq | hj
        · exact absurd (Prod.mk.inj heq).1 hb
        · exact hleast j (hothers.2 ⟨hj, hb⟩)
    · rintro ⟨hlt, b, hm, hk, hleast⟩
      by_cases hb : b = a
      · subst hb
        -- the first of the group is the first of the list
        have hle : k ≤ n := hleast n List.mem_cons_self
        have hkn : k = n := by
          rcases List.mem_cons.1 hk with heq | hk
          · exact (Prod.mk.inj heq).2
          · have := hfirst _ hk
            omega
        subst hkn
        have hm : (b, m) ∈ rest := by
          rcases List.mem_cons.1 hm with heq | hm
          · have := (Prod.mk.inj heq).2
            omega
          · exact hm
        exact .inl (List.mem_map.2 ⟨(b, m), List.mem_filter.2 ⟨hm, beq_self_eq_true b⟩, rfl⟩)
      · have hbehind : ∀ {j}, (b, j) ∈ (a, n) :: rest → (b, j) ∈ others a rest := by
          intro j hj
          rcases List.mem_cons.1 hj with heq | hj
          · exact absurd (Prod.mk.inj heq).1 hb
          · exact hothers.2 ⟨hj, hb⟩
        exact .inr ⟨hlt, b, hbehind hm, hbehind hk,
          fun j hj => hleast j (List.mem_cons_of_mem _ (hothers.1 hj).1)⟩

end Groups

/-! ## What is reported -/

/-- **The repetitions in the groups of a file** are the lines that repeat a block, each with the
first line that has it. -/
theorem mem_repeats_blocks : (n, k) ∈ repeats (blocks lines) ↔
    Duplicate lines n ∧ IsFirst lines k n ∧ k < n := by
  have hsorted : (blocks lines).Pairwise fun a b => a.2 < b.2 := pairwise_blocksFrom 1 _
  rw [mem_repeats_iff hsorted]
  constructor
  · rintro ⟨hlt, text, hmem, hmem', hleast⟩
    obtain ⟨hn, rfl⟩ := mem_blocks_iff.1 hmem
    obtain ⟨hk, htext⟩ := mem_blocks_iff.1 hmem'
    have hblock := (joinedAt_inj hk hn).1 htext.symm
    refine ⟨⟨hn, k, hlt, hk.1.1, hblock⟩, ⟨hk.1.1, hblock, ?_⟩, hlt⟩
    intro m hpos hm
    have hm' := hn.of_blockAt_eq hpos hm
    exact hleast m (mem_blocks_iff.2 ⟨hm', ((joinedAt_inj hm' hn).2 hm).symm⟩)
  · rintro ⟨⟨hn, -⟩, ⟨hpos, hblock, hleast⟩, hlt⟩
    have hk := hn.of_blockAt_eq hpos hblock
    refine ⟨hlt, joinedAt lines n, mem_blocks_iff.2 ⟨hn, rfl⟩,
      mem_blocks_iff.2 ⟨hk, ((joinedAt_inj hk hn).2 hblock).symm⟩, fun j hj => ?_⟩
    obtain ⟨hj, htext⟩ := mem_blocks_iff.1 hj
    exact hleast j hj.1.1 ((joinedAt_inj hj hn).1 htext.symm)

/-- The block of a line has a first line. -/
theorem exists_isFirst (lines : List (List Char)) (hpos : 1 ≤ n) :
    ∃ first, IsFirst lines first n := by
  have hsome : ∃ m, 1 ≤ m ∧ blockAt lines m = blockAt lines n := ⟨n, hpos, rfl⟩
  classical
  exact ⟨Nat.find hsome, (Nat.find_spec hsome).1, (Nat.find_spec hsome).2,
    fun m hpos' hm => Nat.find_min' hsome ⟨hpos', hm⟩⟩

/-- The lines that are listed are those that repeat a block, each once. -/
theorem nodup_repeats_blocks (lines : List (List Char)) :
    ((repeats (blocks lines)).map (·.1)).Nodup := by
  have hnumbers : ((blocks lines).map (·.2)).Nodup :=
    List.pairwise_map.2 ((pairwise_blocksFrom 1 _).imp fun hlt => hlt.ne)
  obtain ⟨listed, hperm, hsublist⟩ := subperm_repeats (blocks lines)
  exact hperm.nodup_iff.1 (hnumbers.sublist hsublist)

theorem length_repeats_blocks (lines : List (List Char)) :
    (repeats (blocks lines)).length = (duplicates lines).card := by
  have hmem : ((repeats (blocks lines)).map (·.1)).toFinset = duplicates lines := by
    ext n
    rw [List.mem_toFinset, mem_duplicates, List.mem_map]
    constructor
    · rintro ⟨⟨n, k⟩, h, rfl⟩
      exact (mem_repeats_blocks.1 h).1
    · intro h
      obtain ⟨first, hfirst⟩ := exists_isFirst lines h.1.1.1
      obtain ⟨m, hlt, hpos, hm⟩ := h.2
      have hle := hfirst.2.2 m hpos hm
      exact ⟨(n, first), mem_repeats_blocks.2 ⟨h, hfirst, by omega⟩, rfl⟩
  rw [← hmem, List.toFinset_card_of_nodup (nodup_repeats_blocks lines), List.length_map]

theorem repetitions_of_lt (h : lines.length < 8) : repetitions lines = [] := if_pos h

theorem repetitions_of_le (h : 8 ≤ lines.length) :
    repetitions lines = (repeats (blocks lines)).take 20 :=
  if_neg (Nat.not_lt.2 h)

/-- **What is reported is a line that repeats a block, with the first line that has it.** -/
theorem duplicate_of_mem_repetitions (h : (n, k) ∈ repetitions lines) :
    Duplicate lines n ∧ IsFirst lines k n ∧ k < n := by
  rcases Nat.lt_or_ge lines.length 8 with hshort | hlong
  · rw [repetitions_of_lt hshort] at h
    exact absurd h List.not_mem_nil
  · rw [repetitions_of_le hlong] at h
    exact mem_repeats_blocks.1 (List.mem_of_mem_take h)

/-- The lines that are reported are told apart. -/
theorem nodup_lines_issues (f : SourceFile) : ((issues f).map (·.line)).Nodup := by
  have hlines : (issues f).map (·.line) =
      ((repetitions f.lines).map (·.1)).map fun n : Nat => Coord.number n := by
    rw [issues, List.map_map, List.map_map]
    rfl
  rw [hlines]
  refine List.Nodup.map (fun a b hab => Int.ofNat.inj (Coord.number.inj hab)) ?_
  rcases Nat.lt_or_ge f.lines.length 8 with hshort | hlong
  · rw [repetitions_of_lt hshort]
    exact List.nodup_nil
  · rw [repetitions_of_le hlong]
    exact (nodup_repeats_blocks f.lines).sublist ((List.take_sublist ..).map _)

/-- **Repeated blocks are reported, and nothing else, up to the limit.** A file of fewer than eight
lines has none. In a longer one every issue is at a line that repeats a block and names the first
line with that block, no line is reported twice, and all of them are reported unless there are more
than twenty. -/
theorem repetitions_reported_up_to_limit (f : SourceFile) :
    (f.lines.length < 8 → issues f = []) ∧
      (8 ≤ f.lines.length →
        (∀ i ∈ issues f, ∃ n first, Duplicate f.lines n ∧ IsFirst f.lines first n ∧ first < n ∧
          i = ⟨"SS105", "Duplicated code block", .medium,
            s!"Repeated 4-line block detected (first seen near line {first}).", f.path, n, 1⟩) ∧
        ((issues f).map (·.line)).Nodup ∧
        (issues f).length = min 20 (duplicates f.lines).card) ∧
      ∀ m n, Eligible f.lines m → Eligible f.lines n →
        (joinedAt f.lines m = joinedAt f.lines n ↔ blockAt f.lines m = blockAt f.lines n) := by
  refine ⟨fun h => ?_, fun h => ⟨fun i hi => ?_, nodup_lines_issues f, ?_⟩,
    fun m n hm hn => joinedAt_inj hm hn⟩
  · rw [issues, repetitions_of_lt h, List.map_nil]
  · obtain ⟨⟨n, first⟩, hmem, rfl⟩ := List.mem_map.1 hi
    obtain ⟨hduplicate, hfirst, hlt⟩ := duplicate_of_mem_repetitions hmem
    exact ⟨n, first, hduplicate, hfirst, hlt, rfl⟩
  · rw [issues, List.length_map, repetitions_of_le h, List.length_take, length_repeats_blocks]

/-- Eight lines that differ in their blanks alone. -/
def spacedFile : SourceFile :=
  .of ⟨.relative, ["notes.txt"]⟩ (List.replicate 4
    "alpha beta gamma delta\n  alpha beta\tgamma   delta \n".toList).flatten

/-- The blocks overlap, and all but the first are reported. -/
theorem repetitions_reported_in_spacedFile :
    8 ≤ spacedFile.lines.length ∧ (issues spacedFile).length = 4 ∧
      ∀ i ∈ issues spacedFile,
        i.message = "Repeated 4-line block detected (first seen near line 1)." := by
  have hlong : 8 ≤ spacedFile.lines.length := by decide
  have hcard : (duplicates spacedFile.lines).card = 4 := by decide +kernel
  have hsame : ∀ n ∈ duplicates spacedFile.lines,
      blockAt spacedFile.lines 1 = blockAt spacedFile.lines n := by decide +kernel
  obtain ⟨hsound, -, hlength⟩ := (repetitions_reported_up_to_limit spacedFile).2.1 hlong
  refine ⟨hlong, by rw [hlength, hcard]; rfl, fun i hi => ?_⟩
  obtain ⟨n, first, hduplicate, ⟨hpos, -, hleast⟩, -, rfl⟩ := hsound i hi
  have hle := hleast 1 (Nat.le_refl 1) (hsame n (mem_duplicates.2 hduplicate))
  obtain rfl : first = 1 := by omega
  rfl

end CodeAudit.Checks.Repetition
