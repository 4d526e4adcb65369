import CodeAudit.Checks.Container
import CodeAudit.Proofs.Text.Trimming

/-!
# The user of an image

A recipe builds an image in stages, each of which begins with a `FROM` instruction and with the
user root. Within a stage a `USER` instruction holds until the next one. So the last `USER`
instruction of the last stage decides under which user the image runs (`deciding?`), and without one
it is root.

The check asks two things of the whole recipe: whether a line sets the user at all, and whether one
sets it to root. An image that runs as root is missed exactly if a line that does not decide, or
that names a group as well, passes for an answer (`root_image_reported_iff`).
-/

namespace CodeAudit.Checks.Container

open Text

variable {f : SourceFile} {instruction : List Char} {n : Nat}

/-! ## What a build reads -/

/-- Whether an instruction has a keyword, in either case. -/
def hasKeyword (keyword : String) (instruction : List Char) : Bool :=
  (instruction.takeWhile (!isBlank ·)).map Char.toUpper == keyword.toList

/-- What stands behind the keyword of an instruction. -/
def argument (instruction : List Char) : List Char :=
  trim (instruction.dropWhile (!isBlank ·))

/-- The texts of the instructions in a file. -/
def recipe (f : SourceFile) : List (List Char) := (instructions f).map (·.1)

/-- **The instruction that decides under which user an image runs**: the last one behind the last
`FROM` that sets a user. -/
def deciding? (recipe : List (List Char)) : Option (List Char) :=
  (recipe.reverse.takeWhile (!hasKeyword "FROM" ·)).find? (hasKeyword "USER")

/-- The names of the user root. -/
def rootNames : List (List Char) := ["root".toList, ['0']]

/-- **An image runs as root** if no instruction decides, or the one that does names root, with or
without a group behind a colon. -/
def RunsAsRoot (recipe : List (List Char)) : Prop :=
  ∀ instruction, deciding? recipe = some instruction →
    (argument instruction).takeWhile (· ≠ ':') ∈ rootNames

instance (recipe : List (List Char)) : Decidable (RunsAsRoot recipe) :=
  decidable_of_iff ((deciding? recipe).all fun instruction =>
    (argument instruction).takeWhile (· ≠ ':') ∈ rootNames)
    (by cases h : deciding? recipe <;> simp [RunsAsRoot, h])

/-! ## What the check reads -/

/-- What the check takes for an instruction that sets the user to root. -/
def setsRoot (instruction : List Char) : Bool :=
  setsUser instruction &&
    (userOf instruction == "root".toList || userOf instruction == ['0'])

/-- A recipe is reported by the rule on root. -/
def RootReported (f : SourceFile) : Prop :=
  ∃ i ∈ recipeIssues f, i.ruleId = Catalogue.dockerRoot.id

instance (f : SourceFile) : Decidable (RootReported f) :=
  inferInstanceAs (Decidable (∃ i ∈ recipeIssues f, i.ruleId = Catalogue.dockerRoot.id))

theorem exists_mem_instructionIssues_iff :
    (∃ i ∈ instructionIssues f instruction n, i.ruleId = Catalogue.dockerRoot.id) ↔
      setsRoot instruction = true := by
  have hunpinned : Catalogue.dockerUnpinned.id ≠ Catalogue.dockerRoot.id := by decide
  have hpipe : Catalogue.dockerPipe.id ≠ Catalogue.dockerRoot.id := by decide
  simp only [instructionIssues, List.mem_append, List.mem_ite_nil_right, List.mem_singleton]
  constructor
  · rintro ⟨i, (⟨hroot, -⟩ | ⟨-, rfl⟩) | ⟨-, rfl⟩, hid⟩
    · exact hroot
    · exact absurd hid hunpinned
    · exact absurd hid hpipe
  · exact fun hroot => ⟨_, .inl (.inl ⟨hroot, rfl⟩), rfl⟩

/-- **A recipe is reported exactly if a line sets the user to root, or none sets it at all.** -/
theorem rootReported_iff (hrecipe : isRecipe f = true) : RootReported f ↔
    (∃ x ∈ recipe f, setsRoot x = true) ∨ ∀ x ∈ recipe f, setsUser x = false := by
  have hissues : recipeIssues f =
      (instructions f).flatMap (fun x => instructionIssues f x.1 x.2) ++
        if (instructions f).any (setsUser ·.1) then [] else
          [Catalogue.dockerRoot.issue f.path 1 1
            "No USER instruction found; container likely runs as root by default."] := by
    rw [recipeIssues, if_neg (by simp [hrecipe])]
  have hnone : (∀ x ∈ recipe f, setsUser x = false) ↔
      ¬ (instructions f).any (setsUser ·.1) = true := by
    simp [recipe]
  rw [RootReported, hissues, hnone]
  constructor
  · rintro ⟨i, hi, hid⟩
    rcases List.mem_append.1 hi with hi | hi
    · obtain ⟨x, hx, hi⟩ := List.mem_flatMap.1 hi
      exact .inl ⟨x.1, List.mem_map_of_mem hx, exists_mem_instructionIssues_iff.1 ⟨i, hi, hid⟩⟩
    · exact .inr (List.mem_ite_nil_left.1 hi).1
  · rintro (⟨_, hx, hroot⟩ | hnone)
    · obtain ⟨x, hmem, rfl⟩ := List.mem_map.1 hx
      obtain ⟨i, hi, hid⟩ := exists_mem_instructionIssues_iff.2 hroot
      exact ⟨i, List.mem_append_left _ (List.mem_flatMap.2 ⟨x, hmem, hi⟩), hid⟩
    · exact ⟨_, List.mem_append_right _
        (List.mem_ite_nil_left.2 ⟨hnone, List.mem_singleton_self _⟩), rfl⟩

/-! ## Where the two agree -/

/-- The keyword has four letters, and one blank more does not matter. -/
theorem userOf_eq (h : hasKeyword "USER" instruction = true) :
    userOf instruction = lower (argument instruction) := by
  have hlength : (instruction.takeWhile (!isBlank ·)).length = 4 := by
    simpa using congrArg List.length (beq_iff_eq.1 h)
  have hparts : instruction.takeWhile (!isBlank ·) ++ instruction.dropWhile (!isBlank ·) =
      instruction := List.takeWhile_append_dropWhile
  have hbehind : instruction.drop 4 = instruction.dropWhile (!isBlank ·) := by
    rw [← hlength]
    exact (congrArg (List.drop _) hparts.symm).trans List.drop_left
  rw [userOf, argument, ← List.drop_drop (i := 1) (j := 4), hbehind]
  cases hrest : instruction.dropWhile (!isBlank ·) with
  | nil => rfl
  | cons c rest =>
    have hblank : isBlank c = true := by
      have hhead := List.head?_dropWhile_not (!isBlank ·) instruction
      simpa [hrest] using hhead
    have htrim : trim ([c] ++ rest ++ []) = trim rest :=
      trim_surrounded (by simpa using hblank) nofun
    rw [List.append_nil] at htrim
    exact congrArg lower htrim.symm

/-- **An image that runs as root is reported exactly if some line of its recipe sets the user to
root, or every line that sets a user is the one that decides and names no group.** -/
theorem root_image_reported_iff (f : SourceFile) (hrecipe : isRecipe f = true)
    (hroot : RunsAsRoot (recipe f)) : RootReported f ↔
      (∃ x ∈ recipe f, setsRoot x = true) ∨
        ∀ x ∈ recipe f, setsUser x = true → deciding? (recipe f) = some x ∧ ':' ∉ argument x := by
  rw [rootReported_iff hrecipe]
  constructor
  · refine Or.imp_right fun hnone x hx hsets => ?_
    exact absurd (hnone x hx) (by simp [hsets])
  · rintro (hsome | hdecides)
    · exact .inl hsome
    by_cases hany : ∃ x ∈ recipe f, setsUser x = true
    · obtain ⟨x, hx, hsets⟩ := hany
      obtain ⟨hdeciding, hgroup⟩ := hdecides x hx hsets
      have hnames := hroot x hdeciding
      rw [List.takeWhile_eq_self_iff.2 fun c hc => by
        simpa using fun heq : c = ':' => hgroup (heq ▸ hc)] at hnames
      refine .inl ⟨x, hx, ?_⟩
      rw [setsRoot, hsets, userOf_eq (List.find?_some hdeciding)]
      rcases List.mem_cons.1 hnames with hname | hname
      · rw [hname]
        decide
      · rw [List.mem_singleton.1 hname]
        decide
    · refine .inr fun x hx => ?_
      simpa using fun hsets => hany ⟨x, hx, hsets⟩

/-- A recipe of one stage that changes to another user and back to root. -/
def rootAgain : SourceFile :=
  .of ⟨.relative, ["Dockerfile"]⟩ "FROM a:1\nUSER app\nUSER root\n".toList

theorem rootAgain_reported : isRecipe rootAgain = true ∧ RunsAsRoot (recipe rootAgain) ∧
    RootReported rootAgain := by
  have hrecipe : isRecipe rootAgain = true := by decide +kernel
  have hroot : RunsAsRoot (recipe rootAgain) := by decide +kernel
  exact ⟨hrecipe, hroot, (root_image_reported_iff rootAgain hrecipe hroot).2
    (.inl ⟨"USER root".toList, by decide +kernel, by decide +kernel⟩)⟩

/-- A recipe of two stages of which only the first sets a user. -/
def userOfFirstStage : SourceFile :=
  .of ⟨.relative, ["Dockerfile"]⟩ "FROM a:1\nUSER app\nFROM b:1\n".toList

/-- **The user of an earlier stage hides that the image runs as root.** -/
theorem userOfFirstStage_not_reported : isRecipe userOfFirstStage = true ∧
    RunsAsRoot (recipe userOfFirstStage) ∧ ¬ RootReported userOfFirstStage := by
  decide +kernel

end CodeAudit.Checks.Container
