import CodeAudit.Proofs.Scan.BuiltIn
import CodeAudit.Proofs.Scan.Dedupe
import Mathlib.Data.List.Basic

/-!
# Scans narrowed to security

The rules that are reported decide which issues of the scan without a selection are kept
(`run_selected`), so two selections are compared rule by rule. Narrowed to security, a selection
keeps every security rule that it had (`chosen_narrowed`), but it may report more (`strays`). If no
rule is left, the empty selection stands for every rule; and a built-in rule that was named with the
mark of the external scanner passes for a security rule by its name.
-/

namespace CodeAudit.Scan

open Security

/-! ## Names of built-in rules -/

/-- A rule's name in capitals, without the mark of the external scanner. -/
structure PlainRule (rule : String) : Prop where
  upper : Text.upper rule.toList = rule.toList
  unmarked : externalMark.isPrefixOf rule.toList = false

/-- The rules of the catalogue have such names. -/
theorem plainRule_of_mem {r : RuleInfo} (h : r ∈ Catalogue.all) : PlainRule r.id := by
  have hall : ∀ r ∈ Catalogue.all, Text.upper r.id.toList = r.id.toList ∧
      externalMark.isPrefixOf r.id.toList = false := by decide +kernel
  exact ⟨(hall r h).1, (hall r h).2⟩

/-- A rule's name with the mark of the external scanner. -/
def marked (rule : String) : String := String.ofList (externalMark ++ rule.toList)

variable {rule name : String}

/-- A built-in rule is meant by its own name and by its marked one. -/
theorem isMeant_iff (h : PlainRule rule) {names : List String} :
    isMeant names rule = true ↔ rule ∈ names ∨ marked rule ∈ names := by
  simp [isMeant, marked, h.upper, h.unmarked]

/-- A name that reads as a built-in rule concerns security if the rule does. -/
theorem isSecurityRule_of_upperName (h : PlainRule rule) (hname : upperName name = rule) :
    isSecurityRule name = isSecurityRule rule := by
  have hupper : Text.upper name.toList = rule.toList := by
    rw [← hname, upperName, String.toList_ofList]
  unfold isSecurityRule
  rw [hupper, h.upper]

/-- A name that reads as a marked rule passes for a security rule. -/
theorem isSecurityRule_of_marked (hname : upperName name = marked rule) :
    isSecurityRule name = true := by
  have hupper : Text.upper name.toList = externalMark ++ rule.toList :=
    String.ofList_injective hname
  unfold isSecurityRule
  rw [hupper, Bool.or_eq_true]
  exact .inr (List.isPrefixOf_iff_prefix.2 (List.prefix_append _ _))

/-- A security rule that is not marked is one of the list. -/
theorem isSecurityRule_iff (h : PlainRule rule) : isSecurityRule rule = true ↔ rule ∈ rules := by
  simp [isSecurityRule, h.upper, h.unmarked]

/-! ## Selections -/

/-- Whether a rule is reported under a selection. -/
def chosen (names : Option (List String)) (rule : String) : Bool :=
  ((selection? names).map (isMeant · rule)).getD true

/-- **Whether a rule is reported by a narrowed selection though it should not be.** Without a
security rule in the selection every rule is, the security rules apart if the selection was empty;
else those are that do not concern security and were named with the mark. -/
def strays : Option (List String) → String → Bool
  | none, _ => false
  | some [], rule => !isSecurityRule rule
  | some names, rule =>
    !names.any isSecurityRule ||
      (!isSecurityRule rule && (names.map upperName).contains (marked rule))

/-- Under names a rule is reported that one of them means. -/
theorem chosen_iff (h : PlainRule rule) {names : List String} (hnames : names ≠ []) :
    chosen (some names) rule = true ↔
      (∃ name ∈ names, upperName name = rule) ∨ ∃ name ∈ names, upperName name = marked rule := by
  obtain ⟨first, rest, rfl⟩ := List.exists_cons_of_ne_nil hnames
  have hselection : selection? (some (first :: rest)) = some ((first :: rest).map upperName) := rfl
  rw [chosen, hselection, Option.map_some, Option.getD_some, isMeant_iff h, List.mem_map,
    List.mem_map]

/-- The selection of the security rules is that. -/
theorem chosen_rules (h : PlainRule rule) : chosen (some rules) rule = isSecurityRule rule := by
  have hown : ∀ name ∈ rules, upperName name = name ∧
      externalMark.isPrefixOf name.toList = false := by decide +kernel
  rw [Bool.eq_iff_iff, chosen_iff h (by decide), isSecurityRule_iff h]
  constructor
  · rintro (⟨name, hmem, hname⟩ | ⟨name, hmem, hname⟩)
    · rwa [← hname, (hown name hmem).1]
    · have hmark := (hown name hmem).2
      rw [← (hown name hmem).1, hname, marked, String.toList_ofList,
        List.isPrefixOf_iff_prefix.2 (List.prefix_append _ _)] at hmark
      exact absurd hmark (by decide)
  · intro hmem
    exact .inl ⟨rule, hmem, (hown rule hmem).1⟩

/-- A name that means a security rule passes for one. -/
theorem any_of_chosen (h : PlainRule rule) {names : List String} (hnames : names ≠ [])
    (hchosen : chosen (some names) rule = true) (hrule : isSecurityRule rule = true) :
    names.any isSecurityRule = true := by
  rw [List.any_eq_true]
  rcases (chosen_iff h hnames).1 hchosen with ⟨name, hmem, hname⟩ | ⟨name, hmem, hname⟩
  · exact ⟨name, hmem, by rw [isSecurityRule_of_upperName h hname, hrule]⟩
  · exact ⟨name, hmem, isSecurityRule_of_marked hname⟩

/-- A security rule that was selected does not stray. -/
theorem not_strays (h : PlainRule rule) {names : Option (List String)}
    (hchosen : chosen names rule = true) (hrule : isSecurityRule rule = true) :
    strays names rule = false := by
  match names with
  | none => rfl
  | some [] => rw [strays, hrule, Bool.not_true]
  | some (first :: rest) =>
    simp [strays, hrule, any_of_chosen h (List.cons_ne_nil _ _) hchosen hrule]

/-- The security names of a selection keep their rules, and all that are named with the mark. -/
theorem chosen_securityNames_iff (h : PlainRule rule) {names : List String}
    (hany : names.any isSecurityRule = true) :
    chosen (some (names.filter isSecurityRule).eraseDups) rule = true ↔
      (∃ name ∈ names, upperName name = rule) ∧ isSecurityRule rule = true ∨
        ∃ name ∈ names, upperName name = marked rule := by
  have hmem : ∀ name, name ∈ (names.filter isSecurityRule).eraseDups ↔
      name ∈ names ∧ isSecurityRule name = true := by
    intro name
    rw [List.mem_eraseDups, List.mem_filter]
  have hnames : (names.filter isSecurityRule).eraseDups ≠ [] := by
    obtain ⟨name, hname⟩ := List.any_eq_true.1 hany
    exact List.ne_nil_of_mem ((hmem name).2 hname)
  rw [chosen_iff h hnames]
  refine or_congr ⟨?_, ?_⟩ ⟨?_, ?_⟩
  · rintro ⟨name, hin, hname⟩
    obtain ⟨hin, hsecurity⟩ := (hmem name).1 hin
    exact ⟨⟨name, hin, hname⟩, by rw [← isSecurityRule_of_upperName h hname, hsecurity]⟩
  · rintro ⟨⟨name, hin, hname⟩, hrule⟩
    exact ⟨name, (hmem name).2 ⟨hin, by rw [isSecurityRule_of_upperName h hname, hrule]⟩, hname⟩
  · rintro ⟨name, hin, hname⟩
    exact ⟨name, ((hmem name).1 hin).1, hname⟩
  · rintro ⟨name, hin, hname⟩
    exact ⟨name, (hmem name).2 ⟨hin, isSecurityRule_of_marked hname⟩, hname⟩

/-- **A narrowed selection reports the security rules that were selected, and those that stray.** -/
theorem chosen_narrowed (h : PlainRule rule) (names : Option (List String)) :
    chosen (enabledRules names true) rule =
      (chosen names rule && isSecurityRule rule || strays names rule) := by
  match names with
  | none =>
    have hall : chosen none rule = true := rfl
    rw [hall, Bool.true_and, strays, Bool.or_false]
    exact chosen_rules h
  | some [] =>
    have hall : chosen (some []) rule = true := rfl
    have hnarrowed : chosen (enabledRules (some []) true) rule = true := rfl
    rw [hall, hnarrowed, strays]
    cases isSecurityRule rule <;> rfl
  | some (first :: rest) =>
    have hstrays : strays (some (first :: rest)) rule = (!(first :: rest).any isSecurityRule ||
        (!isSecurityRule rule && ((first :: rest).map upperName).contains (marked rule))) := rfl
    by_cases hany : (first :: rest).any isSecurityRule = true
    · have hmarked : ((first :: rest).map upperName).contains (marked rule) = true ↔
          ∃ name ∈ first :: rest, upperName name = marked rule := by
        rw [List.contains_iff_mem, List.mem_map]
      have hnarrowed := chosen_securityNames_iff h hany
      have hbefore := chosen_iff h (List.cons_ne_nil first rest)
      rw [hstrays, hany, Bool.not_true, Bool.false_or, Bool.eq_iff_iff]
      show chosen (some ((first :: rest).filter isSecurityRule).eraseDups) rule = true ↔ _
      rw [hnarrowed, Bool.or_eq_true, Bool.and_eq_true, Bool.and_eq_true, hbefore, hmarked]
      cases isSecurityRule rule <;> simp
    · -- no name is left, and the selection stands for every rule
      have hnone : (first :: rest).filter isSecurityRule = [] := by
        rw [List.filter_eq_nil_iff]
        exact fun name hname hsecurity => hany (List.any_eq_true.2 ⟨name, hname, hsecurity⟩)
      have hnarrowed : enabledRules (some (first :: rest)) true = some [] := by
        show some ((first :: rest).filter isSecurityRule).eraseDups = some []
        rw [hnone, List.eraseDups_nil]
      have hall : chosen (some []) rule = true := rfl
      rw [hnarrowed, hall, hstrays, Bool.eq_false_iff.2 hany, Bool.not_false, Bool.true_or,
        Bool.or_true]

/-- A narrowed selection is right about a rule exactly if the rule does not stray. -/
theorem chosen_narrowed_eq_iff (h : PlainRule rule) {names : Option (List String)} :
    chosen (enabledRules names true) rule = (isSecurityRule rule && chosen names rule) ↔
      strays names rule = false := by
  rw [chosen_narrowed h, Bool.and_comm]
  constructor
  · intro heq
    by_cases hboth : (isSecurityRule rule && chosen names rule) = true
    · obtain ⟨hrule, hchosen⟩ := Bool.and_eq_true_iff.1 hboth
      exact not_strays h hchosen hrule
    · rw [Bool.eq_false_iff.2 hboth, Bool.false_or] at heq
      exact heq
  · intro hstays
    rw [hstays, Bool.or_false]

example : strays (some ["sg:ss004", "SS108"]) "SS004" = true := by decide +kernel

/-! ## The issues of a selection -/

/-- A plan that reports every rule that is not disabled. -/
def Plan.unselected (p : Plan) : Plan := { p with enabledRules := none, securityOnly := false }

/-- Whether a plan selects a rule. -/
def Plan.selects (p : Plan) (rule : String) : Bool :=
  chosen (Security.enabledRules p.enabledRules p.securityOnly) rule

/-- The issues that are kept of selected rules are the selected ones among all that are kept. -/
theorem kept_selected (p : Plan) (silenced : List (Nat × List String)) (shown : String)
    (issues : List Issue) :
    kept p.checkRules silenced shown issues =
      (kept p.unselected.checkRules silenced shown issues).filter fun i => p.selects i.ruleId := by
  have hallow : ∀ rule, p.checkRules.allow rule =
      (p.selects rule && p.unselected.checkRules.allow rule) := by
    intro rule
    show (!isMeant (p.disabledRules.map upperName) rule && p.selects rule) =
      (p.selects rule && (!isMeant (p.disabledRules.map upperName) rule && true))
    rw [Bool.and_true, Bool.and_comm]
  unfold kept
  rw [List.filter_filter]
  refine List.filter_congr fun i _ => ?_
  rw [hallow, Bool.and_assoc]

variable {disk : Disk} {p : Plan} {tree : FileTree} {machine : External.Machine}
  {coverage : Option Coverage} {all : ScanResult}

/-- **A selection keeps its rules' issues of the scan without one**, and changes nothing else. -/
theorem run_selected (hread : tree.Readable)
    (hroot : disk.get? (disk.absolute p.root) = some tree)
    (hengine : Engine.ofName? p.engine = some .builtIn)
    (hall : (run disk machine p.unselected coverage).result = .ok all) :
    (run disk machine p coverage).result =
      .ok { all with issues := all.issues.filter fun i => p.selects i.ruleId } := by
  have hissues : ∀ t ∈ targets p.choice (disk.absolute p.root) tree, targetIssues p t =
      (targetIssues p.unselected t).filter fun i => p.selects i.ruleId := by
    intro t ht
    have hfile := readable_of_mem_targets hread ht
    rw [targetIssues_of_readable p hfile, targetIssues_of_readable p.unselected hfile]
    exact kept_selected p _ _ _
  rw [run_builtIn (p := p.unselected) hroot hengine] at hall
  obtain rfl := Except.ok.inj hall
  rw [run_builtIn hroot hengine, List.flatMap_congr hissues, ← List.filter_flatMap,
    dedupe_filter (respectsSame_rule p.selects)]
  rfl

/-- The issues of a scan are of rules in the catalogue. -/
theorem plainRule_of_run (hread : tree.Readable)
    (hroot : disk.get? (disk.absolute p.root) = some tree)
    (hengine : Engine.ofName? p.engine = some .builtIn)
    (hall : (run disk machine p coverage).result = .ok all) :
    ∀ i ∈ all.issues, PlainRule i.ruleId := by
  intro i hi
  rw [run_builtIn hroot hengine] at hall
  obtain rfl := Except.ok.inj hall
  obtain ⟨t, ht, hi⟩ := List.mem_flatMap.1 (mem_of_mem_dedupe hi)
  rw [targetIssues_of_readable p (readable_of_mem_targets hread ht)] at hi
  obtain ⟨j, hj, rfl⟩ := List.mem_map.1 (List.mem_filter.1 hi).1
  obtain ⟨r, hr, hid⟩ := exists_rule_of_mem_check hj
  exact hid ▸ plainRule_of_mem (List.mem_append_left _ hr)

/-! ## Narrowing a scan -/

section Filters

variable {α : Type} {keep keep' : α → Bool} {l : List α}

/-- Two choices keep the same things only if they agree on each. -/
theorem filter_eq_filter_iff : l.filter keep = l.filter keep' ↔ ∀ x ∈ l, keep x = keep' x := by
  refine ⟨fun h x hx => ?_, List.filter_congr⟩
  have hmem : x ∈ l.filter keep ↔ x ∈ l.filter keep' := by rw [h]
  rw [List.mem_filter, List.mem_filter] at hmem
  rw [Bool.eq_iff_iff]
  exact ⟨fun hk => (hmem.1 ⟨hx, hk⟩).2, fun hk => (hmem.2 ⟨hx, hk⟩).2⟩

/-- A narrower choice keeps a part. -/
theorem filter_sublist_filter (h : ∀ x ∈ l, keep x = true → keep' x = true) :
    (l.filter keep).Sublist (l.filter keep') := by
  have htwice : l.filter keep = (l.filter keep').filter keep := by
    rw [List.filter_filter]
    refine List.filter_congr fun x hx => ?_
    rw [Bool.eq_iff_iff, Bool.and_eq_true]
    exact ⟨fun hk => ⟨hk, h x hx hk⟩, And.left⟩
  rw [htwice]
  exact List.filter_sublist

end Filters

/-- **Narrowed to security, a scan reports the security issues of the scan that is not narrowed**,
and no others exactly if no rule with an issue strays. -/
theorem narrows_iff_no_rule_strays (hread : tree.Readable)
    (hroot : disk.get? (disk.absolute p.root) = some tree)
    (hengine : Engine.ofName? p.engine = some .builtIn) (machine : External.Machine)
    (coverage : Option Coverage) :
    ∃ every wide narrow : ScanResult,
      (run disk machine { p with enabledRules := none, securityOnly := false } coverage).result =
        .ok every ∧
      (run disk machine { p with securityOnly := false } coverage).result = .ok wide ∧
      (run disk machine { p with securityOnly := true } coverage).result = .ok narrow ∧
      (wide.issues.filter fun i => isSecurityRule i.ruleId).Sublist narrow.issues ∧
      (narrow.issues = (wide.issues.filter fun i => isSecurityRule i.ruleId) ↔
        ∀ i ∈ every.issues, strays p.enabledRules i.ruleId = false) := by
  obtain ⟨every, hevery⟩ : ∃ every, (run disk machine p.unselected coverage).result = .ok every :=
    ⟨_, run_builtIn (p := p.unselected) hroot hengine machine coverage⟩
  have hwide := run_selected (p := { p with securityOnly := false }) hread hroot hengine hevery
  have hnarrow := run_selected (p := { p with securityOnly := true }) hread hroot hengine hevery
  have hplain := plainRule_of_run (p := p.unselected) hread hroot hengine hevery
  refine ⟨every, _, _, hevery, hwide, hnarrow, ?_, ?_⟩
  · rw [List.filter_filter]
    refine filter_sublist_filter fun i hi h => ?_
    obtain ⟨hrule, hchosen⟩ := Bool.and_eq_true_iff.1 h
    have hkept : chosen p.enabledRules i.ruleId = true := hchosen
    show chosen (Security.enabledRules p.enabledRules true) i.ruleId = true
    rw [chosen_narrowed (hplain i hi), hkept, hrule]
    rfl
  · rw [List.filter_filter, filter_eq_filter_iff]
    exact forall₂_congr fun i hi => chosen_narrowed_eq_iff (hplain i hi)

/-- A folder with a file for a container build. -/
def containerDisk : Disk where
  tree := .folder [("Dockerfile", .file ⟨[], true⟩)]
  current := ⟨.slash, []⟩

/-- A scan of the folder for the rules that are named. -/
def selecting (names : List String) : Plan where
  root := ⟨.relative, []⟩
  choice :=
    { excludes := [], extensions := [], filenames := ["Dockerfile"], maxFileSizeKb := 1024
      skipGenerated := true }
  enabledRules := some names

/-- The rules of the issues that a scan of the folder finds. -/
def rulesFound (p : Plan) : Option (List String) :=
  (run containerDisk {} p none).result.toOption.map fun r => r.issues.map (·.ruleId)

/-- With a security rule and another one selected, the narrowed scan keeps the issue of the one. -/
theorem narrows_selecting_dockerRoot :
    rulesFound { selecting ["ss108", "SS004"] with securityOnly := true } = some ["SS108"] ∧
    ∃ wide narrow : ScanResult,
      (run containerDisk {} (selecting ["ss108", "SS004"]) none).result = .ok wide ∧
      (run containerDisk {} { selecting ["ss108", "SS004"] with securityOnly := true }
        none).result = .ok narrow ∧
      narrow.issues = wide.issues.filter fun i => isSecurityRule i.ruleId := by
  refine ⟨by decide +kernel, ?_⟩
  have hread : containerDisk.tree.Readable := by
    refine .folder fun e he => ?_
    obtain rfl := List.mem_singleton.1 he
    exact .file rfl
  obtain ⟨every, wide, narrow, hevery, hwide, hnarrow, -, hiff⟩ :=
    @narrows_iff_no_rule_strays containerDisk (selecting ["ss108", "SS004"]) _ hread rfl
      (by decide) {} none
  refine ⟨wide, narrow, hwide, hnarrow, hiff.2 fun i hi => ?_⟩
  have hfound : rulesFound { selecting ["ss108", "SS004"] with enabledRules := none } =
      some ["SS108"] := by decide +kernel
  have hrules : some (every.issues.map (·.ruleId)) = some ["SS108"] := by
    rw [← hfound, rulesFound]
    exact (congrArg (fun r => r.toOption.map fun r => r.issues.map (·.ruleId)) hevery).symm
  have hrule : i.ruleId ∈ every.issues.map (·.ruleId) := List.mem_map_of_mem hi
  rw [Option.some.inj hrules, List.mem_singleton] at hrule
  rw [hrule]
  decide +kernel

/-- **Narrowed to security, a selection without security rules reports every rule.** -/
theorem security_issue_though_not_selected :
    rulesFound (selecting ["SS004"]) = some [] ∧
    rulesFound { selecting ["SS004"] with securityOnly := true } = some ["SS108"] := by
  decide +kernel

end CodeAudit.Scan
