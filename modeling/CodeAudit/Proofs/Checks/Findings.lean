import CodeAudit.Checks.Analyser

/-!
# What checks find

A check sees the path of a file only to name it in its issues: what it finds is decided by the
name, the ending and the text. Every issue is of one of the rules that the check has. `Placed` says
both of a list of issues as a function of the path; it is closed under the ways in which checks are
put together, and each check is one of them. A group of checks comes with its parts (`Parts`), so
that the issues of one rule are those of the part that has it (`Parts.filter_eq`).
-/

namespace CodeAudit

/-- A file under another path, with the same name and ending. -/
def SourceFile.moved (f : SourceFile) (path : String) : SourceFile := { f with path }

section Moved

variable (f : SourceFile) (path : String)

@[simp] theorem SourceFile.path_moved : (f.moved path).path = path := rfl
@[simp] theorem SourceFile.name_moved : (f.moved path).name = f.name := rfl
@[simp] theorem SourceFile.suffix_moved : (f.moved path).suffix = f.suffix := rfl
@[simp] theorem SourceFile.text_moved : (f.moved path).text = f.text := rfl
@[simp] theorem SourceFile.lines_moved : (f.moved path).lines = f.lines := rfl
@[simp] theorem SourceFile.numbered_moved : (f.moved path).numbered = f.numbered := rfl

end Moved

namespace Checks

/-- What a check with certain rules finds in a file whose path is left open. -/
structure Finding (rules : List RuleInfo) where
  rule : RuleInfo
  line : Int
  column : Int
  message : String
  mem_rules : rule ∈ rules

/-- The issue of a finding in a file. -/
def Finding.issue {rules : List RuleInfo} (x : Finding rules) (path : String) : Issue :=
  x.rule.issue path (.number x.line) (.number x.column) x.message

/-- **Issues that depend on a path only in that they name it**, and are of certain rules. -/
def Placed (rules : List RuleInfo) (issues : String → List Issue) : Prop :=
  ∃ found : List (Finding rules), ∀ path, issues path = found.map (·.issue path)

/-- The same for at most one issue. -/
def PlacedOne (rules : List RuleInfo) (issue : String → Option Issue) : Prop :=
  ∃ found : Option (Finding rules), ∀ path, issue path = found.map (·.issue path)

variable {α : Type} {r : RuleInfo} {rules : List RuleInfo}

namespace PlacedOne

theorem none : PlacedOne rules fun _ => .none := ⟨.none, fun _ => rfl⟩

theorem some (hr : r ∈ rules) (line column : Int) (message : String) :
    PlacedOne rules fun path => .some (r.issue path (.number line) (.number column) message) :=
  ⟨.some ⟨r, line, column, message, hr⟩, fun _ => rfl⟩

theorem cond {c : Prop} {dec : String → Decidable c} {a b : String → Option Issue}
    (ha : PlacedOne rules a) (hb : PlacedOne rules b) :
    PlacedOne rules fun path => @ite _ c (dec path) (a path) (b path) := by
  by_cases hc : c
  · simpa only [if_pos hc] using ha
  · simpa only [if_neg hc] using hb

theorem bind (o : Option α) {g : α → String → Option Issue} (h : ∀ a, PlacedOne rules (g a)) :
    PlacedOne rules fun path => o.bind fun a => g a path := by
  cases o with
  | none => exact none
  | some a => exact h a

end PlacedOne

namespace Placed

theorem nil : Placed rules fun _ => [] := ⟨[], fun _ => rfl⟩

theorem single (hr : r ∈ rules) (line column : Int) (message : String) :
    Placed rules fun path => [r.issue path (.number line) (.number column) message] :=
  ⟨[⟨r, line, column, message, hr⟩], fun _ => rfl⟩

theorem append {a b : String → List Issue} (ha : Placed rules a) (hb : Placed rules b) :
    Placed rules fun path => a path ++ b path := by
  obtain ⟨x, hx⟩ := ha
  obtain ⟨y, hy⟩ := hb
  exact ⟨x ++ y, fun path => by simp only [hx, hy, List.map_append]⟩

theorem cond {c : Prop} {dec : String → Decidable c} {a b : String → List Issue}
    (ha : Placed rules a) (hb : Placed rules b) :
    Placed rules fun path => @ite _ c (dec path) (a path) (b path) := by
  by_cases hc : c
  · simpa only [if_pos hc] using ha
  · simpa only [if_neg hc] using hb

theorem flatMap (xs : List α) {g : α → String → List Issue} (h : ∀ x ∈ xs, Placed rules (g x)) :
    Placed rules fun path => xs.flatMap fun x => g x path := by
  induction xs with
  | nil => exact nil
  | cons x xs ih =>
    simp only [List.flatMap_cons]
    exact append (h x List.mem_cons_self) (ih fun y hy => h y (List.mem_cons_of_mem x hy))

theorem filterMap (xs : List α) {g : α → String → Option Issue}
    (h : ∀ x ∈ xs, PlacedOne rules (g x)) :
    Placed rules fun path => xs.filterMap fun x => g x path := by
  induction xs with
  | nil => exact nil
  | cons x xs ih =>
    obtain ⟨found, hfound⟩ := h x List.mem_cons_self
    obtain ⟨rest, hrest⟩ := ih fun y hy => h y (List.mem_cons_of_mem x hy)
    refine ⟨found.toList ++ rest, fun path => ?_⟩
    simp only [List.filterMap_cons, hfound, hrest path, List.map_append]
    cases found <;> rfl

theorem map (xs : List α) {g : α → String → Issue}
    (h : ∀ x ∈ xs, Placed rules fun path => [g x path]) :
    Placed rules fun path => xs.map fun x => g x path := by
  simp only [List.map_eq_flatMap]
  exact flatMap xs h

/-- Of a rule that the check does not have there are no issues. -/
theorem filter_eq_nil {issues : String → List Issue} (h : Placed rules issues) {id : String}
    (hid : ∀ r ∈ rules, r.id ≠ id) (path : String) :
    (issues path).filter (·.ruleId == id) = [] := by
  obtain ⟨found, hfound⟩ := h
  rw [List.filter_eq_nil_iff, hfound]
  intro i hi hrule
  obtain ⟨x, _, rfl⟩ := List.mem_map.1 hi
  exact hid x.rule x.mem_rules (beq_iff_eq.1 hrule)

theorem mono {more : List RuleInfo} {issues : String → List Issue} (h : Placed rules issues)
    (hr : rules ⊆ more) : Placed more issues := by
  obtain ⟨found, hfound⟩ := h
  refine ⟨found.map fun x => { x with mem_rules := hr x.mem_rules }, fun path => ?_⟩
  rw [hfound, List.map_map]
  rfl

end Placed

/-! ## Parts -/

/-- **A part of a group of checks**, with the rules that it has. -/
structure Part where
  rules : List RuleInfo
  issues : SourceFile → List Issue
  placed : ∀ f : SourceFile, Placed rules fun path => issues (f.moved path)

namespace Part

/-- Whether a part has a rule. -/
def has (id : String) (p : Part) : Bool := p.rules.any (·.id == id)

/-- What some parts find, one after the other. -/
def join : List Part → SourceFile → List Issue
  | [], _ => []
  | p :: rest, f => rest.foldl (fun found q => found ++ q.issues f) (p.issues f)

theorem join_eq_flatMap (parts : List Part) (f : SourceFile) :
    join parts f = parts.flatMap (·.issues f) := by
  cases parts with
  | nil => rfl
  | cons p rest => rw [join, List.foldl_append_eq_append, List.flatMap_cons, List.flatMap]

theorem filter_eq_nil {p : Part} {id : String} (h : p.has id = false) (f : SourceFile) :
    (p.issues f).filter (·.ruleId == id) = [] := by
  refine (p.placed f).filter_eq_nil (fun r hr hid => ?_) f.path
  exact List.any_eq_false.1 h r hr (beq_iff_eq.2 hid)

/-- Parts that do not have a rule can be left out where only its issues count. -/
theorem filter_flatMap (parts : List Part) (id : String) (f : SourceFile) :
    (parts.flatMap (·.issues f)).filter (·.ruleId == id) =
      ((parts.filter (has id)).flatMap (·.issues f)).filter (·.ruleId == id) := by
  induction parts with
  | nil => rfl
  | cons p rest ih =>
    rw [List.flatMap_cons, List.filter_append, ih]
    cases hp : p.has id with
    | true => rw [List.filter_cons_of_pos hp, List.flatMap_cons, List.filter_append]
    | false => rw [filter_eq_nil hp, List.nil_append, List.filter_cons_of_neg (by simp [hp])]

end Part

/-- **The parts that a group of checks is put together from.** -/
structure Parts (check : SourceFile → List Issue) where
  list : List Part
  join_eq : ∀ f, Part.join list f = check f

namespace Parts

variable {check : SourceFile → List Issue} (parts : Parts check)

theorem eq_flatMap (f : SourceFile) : check f = parts.list.flatMap (·.issues f) := by
  rw [← parts.join_eq, Part.join_eq_flatMap]

theorem placed (h : ∀ p ∈ parts.list, p.rules ⊆ rules) (f : SourceFile) :
    Placed rules fun path => check (f.moved path) := by
  simp only [parts.eq_flatMap]
  exact .flatMap _ fun p hp => (p.placed f).mono (h p hp)

/-- **The issues of a rule are those of the only part that has it.** -/
theorem filter_eq (r : RuleInfo) {p : Part} (h : parts.list.filter (Part.has r.id) = [p])
    (f : SourceFile) :
    (check f).filter (·.ruleId == r.id) = (p.issues f).filter (·.ruleId == r.id) := by
  rw [parts.eq_flatMap, Part.filter_flatMap, h, List.flatMap_singleton]

end Parts

/-! ## Numbers above a limit -/

section Limits

variable {limit a b : Nat} {message : Nat → String} {path : String}

/-- What a rule on a file reports of a number that is above a limit. -/
def aboveLimit (r : RuleInfo) (limit : Nat) (message : Nat → String) (path : String)
    (count : Nat) : List Issue :=
  if limit < count then [r.issue path 1 1 (message count)] else []

theorem toString_inj (h : toString a = toString b) : a = b := by
  have hdigits : Nat.toDigits 10 a = Nat.toDigits 10 b := by
    simpa [Nat.toString_eq_repr] using congrArg String.toList h
  calc a = Nat.ofDigitChars 10 (Nat.toDigits 10 a) 0 :=
        (Nat.ofDigitChars_toDigits (by decide) (by decide)).symm
    _ = b := by rw [hdigits, Nat.ofDigitChars_toDigits (by decide) (by decide)]

/-- Numbers differ if the same texts around them make different ones. -/
theorem surrounded_inj {start stop : String}
    (h : start ++ toString a ++ stop = start ++ toString b ++ stop) : a = b :=
  toString_inj ((String.append_right_inj _).1 ((String.append_left_inj _).1 h))

/-- A number shows in what is reported exactly if it is above the limit. -/
theorem aboveLimit_eq_iff (hmessage : ∀ {a b}, message a = message b → a = b) (hle : a ≤ b) :
    aboveLimit r limit message path b = aboveLimit r limit message path a ↔
      b ≤ max limit a := by
  rw [aboveLimit, aboveLimit]
  constructor
  · refine fun h => Nat.le_of_not_lt fun hlt => ?_
    rw [if_pos (by omega)] at h
    split at h
    · have hsame := hmessage (congrArg Issue.message (List.head_eq_of_cons_eq h))
      omega
    · cases h
  · intro hb
    rcases Nat.lt_or_ge limit b with hlt | hge
    · obtain rfl : a = b := by omega
      rfl
    · rw [if_neg (by omega), if_neg (by omega)]

theorem aboveLimit_eq_nil_iff : aboveLimit r limit message path a = [] ↔ a ≤ limit := by
  rw [aboveLimit]
  split
  · simp only [List.cons_ne_nil, false_iff]
    omega
  · simp only [true_iff]
    omega

end Limits

/-! ## Checks of any source -/

variable (f : SourceFile)

theorem placed_workItems (hr : Catalogue.workItem ∈ rules) :
    Placed rules fun path => workItems (f.moved path) := by
  simp only [workItems, SourceFile.numbered_moved, SourceFile.path_moved]
  refine .filterMap _ fun ⟨line, n⟩ _ => ?_
  cases workItemPattern.search line with
  | none => exact .none
  | some m => exact .some hr _ _ _

theorem placed_secrets (hr : Catalogue.hardcodedSecret ∈ rules) (signs : String) :
    Placed rules fun path => secrets signs (f.moved path) := by
  simp only [secrets, SourceFile.numbered_moved, SourceFile.path_moved]
  exact .filterMap _ fun ⟨line, n⟩ _ => .cond (.some hr _ _ _) .none

theorem placed_codeLines (hr : r ∈ rules) (message : String) (test : List Char → Bool) :
    Placed rules fun path => codeLines (f.moved path) r message test := by
  simp only [codeLines, SourceFile.numbered_moved, SourceFile.path_moved]
  exact .filterMap _ fun ⟨line, n⟩ _ => .cond (.some hr _ _ _) .none

theorem placed_mergeMarkers (hr : Catalogue.mergeMarker ∈ rules) :
    Placed rules fun path => AnySource.mergeMarkers (f.moved path) := by
  simp only [AnySource.mergeMarkers, SourceFile.numbered_moved, SourceFile.path_moved]
  exact .filterMap _ fun ⟨line, n⟩ _ => .cond (.some hr _ _ _) .none

theorem placed_dynamicEvals (hr : Catalogue.dynamicEval ∈ rules) :
    Placed rules fun path => AnySource.dynamicEvals (f.moved path) := by
  simp only [AnySource.dynamicEvals, SourceFile.numbered_moved, SourceFile.path_moved,
    SourceFile.suffix_moved]
  exact .cond .nil (.filterMap _ fun ⟨line, n⟩ _ => .cond (.some hr _ _ _) .none)

theorem placed_privateKeys (hr : Catalogue.privateKey ∈ rules) :
    Placed rules fun path => AnySource.privateKeys (f.moved path) := by
  simp only [AnySource.privateKeys, SourceFile.numbered_moved, SourceFile.path_moved]
  exact .filterMap _ fun ⟨line, n⟩ _ => .cond (.some hr _ _ _) .none

theorem placed_plainAddresses (hr : Catalogue.insecureUrl ∈ rules) :
    Placed rules fun path => AnySource.plainAddresses (f.moved path) := by
  simp only [AnySource.plainAddresses, SourceFile.numbered_moved, SourceFile.path_moved]
  exact .flatMap _ fun ⟨line, n⟩ _ => .filterMap _ fun m _ => .cond .none (.some hr _ _ _)

theorem placed_longLines (hr : Catalogue.longLine ∈ rules) :
    Placed rules fun path => AnySource.longLines (f.moved path) := by
  simp only [AnySource.longLines, SourceFile.numbered_moved, SourceFile.path_moved]
  exact .filterMap _ fun ⟨line, n⟩ _ => .cond .none (.some hr _ _ _)

theorem placed_trailingBlanks (hr : Catalogue.trailingBlanks ∈ rules) :
    Placed rules fun path => AnySource.trailingBlanks (f.moved path) := by
  simp only [AnySource.trailingBlanks, SourceFile.numbered_moved, SourceFile.path_moved]
  exact .filterMap _ fun ⟨line, n⟩ _ => .cond .none (.some hr _ _ _)

theorem placed_largeFile (hr : Catalogue.largeFile ∈ rules) :
    Placed rules fun path => AnySource.largeFile (f.moved path) := by
  simp only [AnySource.largeFile, SourceFile.lines_moved, SourceFile.path_moved]
  exact .cond .nil (.single hr _ _ _)

theorem placed_repetitions (hr : Catalogue.duplicateBlock ∈ rules) :
    Placed rules fun path => Repetition.issues (f.moved path) := by
  simp only [Repetition.issues, SourceFile.lines_moved, SourceFile.path_moved]
  exact .map _ fun ⟨line, first⟩ _ => .single hr _ _ _

/-! ## Container recipes and workloads -/

/-- The rules for container recipes. -/
def Container.recipeRules : List RuleInfo :=
  [Catalogue.dockerRoot, Catalogue.dockerUnpinned, Catalogue.dockerPipe]

/-- The rules for workloads. -/
def Container.manifestRules : List RuleInfo :=
  [Catalogue.podPrivileged, Catalogue.podEscalation, Catalogue.podRoot, Catalogue.podHost]

theorem placed_instructionIssues (hr : Container.recipeRules ⊆ rules) (instruction : List Char)
    (n : Nat) :
    Placed rules fun path => Container.instructionIssues (f.moved path) instruction n := by
  simp only [Container.instructionIssues, SourceFile.path_moved]
  exact .append (.append (.cond (.single (hr (by decide)) _ _ _) .nil)
    (.cond (.single (hr (by decide)) _ _ _) .nil)) (.cond (.single (hr (by decide)) _ _ _) .nil)

theorem placed_recipeIssues (hr : Container.recipeRules ⊆ rules) :
    Placed rules fun path => Container.recipeIssues (f.moved path) := by
  have hrecipe : ∀ path, Container.isRecipe (f.moved path) = Container.isRecipe f := fun _ => rfl
  have hinstructions : ∀ path, Container.instructions (f.moved path) = Container.instructions f :=
    fun _ => rfl
  simp only [Container.recipeIssues, hrecipe, hinstructions, SourceFile.path_moved]
  exact .cond .nil (.append (.flatMap _ fun ⟨line, n⟩ _ => placed_instructionIssues f hr line n)
    (.cond .nil (.single (hr (by decide)) _ _ _)))

theorem placed_manifestIssues (hr : Container.manifestRules ⊆ rules) :
    Placed rules fun path => Container.manifestIssues (f.moved path) := by
  have hmanifest : ∀ path, Container.isManifest (f.moved path) = Container.isManifest f :=
    fun _ => rfl
  have hinstructions : ∀ path, Container.instructions (f.moved path) = Container.instructions f :=
    fun _ => rfl
  have hrules : ∀ s ∈ Container.riskySettings, s.2.1 ∈ Container.manifestRules := by
    intro s hs
    simp only [Container.riskySettings, List.mem_cons, List.not_mem_nil, or_false] at hs
    rcases hs with rfl | rfl | rfl | rfl <;> decide
  simp only [Container.manifestIssues, hmanifest, hinstructions, SourceFile.text_moved,
    SourceFile.path_moved]
  exact .cond .nil (.flatMap _ fun ⟨line, n⟩ _ => .filterMap _ fun s hs =>
    .cond (.some (hr (hrules s hs)) _ _ _) .none)

/-- The rules for any source. -/
def anySourceRules : List RuleInfo :=
  [Catalogue.workItem, Catalogue.hardcodedSecret, Catalogue.mergeMarker, Catalogue.dynamicEval,
   Catalogue.privateKey, Catalogue.insecureUrl, Catalogue.longLine, Catalogue.trailingBlanks,
   Catalogue.largeFile, Catalogue.duplicateBlock] ++ Container.recipeRules ++
    Container.manifestRules

/-- Lines with a work item marker. -/
def Part.workItems : Part :=
  ⟨[Catalogue.workItem], Checks.workItems, fun f => placed_workItems f (by decide)⟩

/-- Lines that give a credential a value. -/
def Part.secrets (signs : String) : Part :=
  ⟨[Catalogue.hardcodedSecret], Checks.secrets signs, fun f => placed_secrets f (by decide) signs⟩

/-- The parts of the checks for any source. -/
def AnySource.parts : Parts AnySource.check where
  list := [.workItems, .secrets _,
    ⟨[Catalogue.mergeMarker], _, fun f => placed_mergeMarkers f (by decide)⟩,
    ⟨[Catalogue.dynamicEval], _, fun f => placed_dynamicEvals f (by decide)⟩,
    ⟨[Catalogue.privateKey], _, fun f => placed_privateKeys f (by decide)⟩,
    ⟨[Catalogue.insecureUrl], _, fun f => placed_plainAddresses f (by decide)⟩,
    ⟨Container.recipeRules, _, fun f => placed_recipeIssues f (by decide)⟩,
    ⟨Container.manifestRules, _, fun f => placed_manifestIssues f (by decide)⟩,
    ⟨[Catalogue.longLine], _, fun f => placed_longLines f (by decide)⟩,
    ⟨[Catalogue.trailingBlanks], _, fun f => placed_trailingBlanks f (by decide)⟩,
    ⟨[Catalogue.largeFile], _, fun f => placed_largeFile f (by decide)⟩,
    ⟨[Catalogue.duplicateBlock], _, fun f => placed_repetitions f (by decide)⟩]
  join_eq _ := rfl

theorem placed_anySource : Placed anySourceRules fun path => AnySource.check (f.moved path) :=
  AnySource.parts.placed (by decide) f

end Checks

end CodeAudit
