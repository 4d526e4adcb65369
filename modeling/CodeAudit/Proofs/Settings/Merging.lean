import CodeAudit.Proofs.Report.Files
import CodeAudit.Settings.Merge
import Mathlib.Data.List.Induction

/-!
# Settings and the command line: what merging does

Each setting is either replaced by what the command line gives for it (`Replaced`), or it is a list
and grows (`Extended`): then every entry stands there once, in the order of first occurrence.
`Merged` says this of all settings. Where the lists hold texts, merging gives settings that are
merged in this sense, and merging the same command line again changes nothing.
-/

namespace CodeAudit.Settings

open Toml (Value Misuse)
open CommandLine (ScanOptions)

/-! ## Lists that grow -/

/-- **Two lists joined into one**: the entries of both, each once, in the order in which they first
occur in the one list followed by the other. So all of the first list come before what is new. -/
structure Joined (own given result : List String) : Prop where
  nodup : result.Nodup
  mem_iff : ∀ text, text ∈ result ↔ text ∈ own ∨ text ∈ given
  inOrder : result.Pairwise fun a b => (own ++ given).idxOf a < (own ++ given).idxOf b

/-- A list after more was given for it. Without anything given it is left as it was. -/
structure Extended (own given result : List String) : Prop where
  kept : given = [] → result = own
  joined : given ≠ [] → Joined own given result

/-- One more entry is kept if it is new. -/
theorem eraseDups_snoc (texts : List String) (text : String) :
    (texts ++ [text]).eraseDups = texts.eraseDups ++ if text ∈ texts then [] else [text] := by
  rw [List.eraseDups_append]
  by_cases h : text ∈ texts <;> simp [List.removeAll, List.eraseDups_cons, h]

/-- Entries that are kept once stand in the order of first occurrence. -/
theorem pairwise_eraseDups (texts : List String) :
    texts.eraseDups.Pairwise fun a b => texts.idxOf a < texts.idxOf b := by
  induction texts using List.reverseRecOn with
  | nil => exact List.Pairwise.nil
  | append_singleton texts text ih =>
    rw [eraseDups_snoc, List.pairwise_append]
    refine ⟨?_, ?_, ?_⟩
    · refine ih.imp_of_mem fun ha hb hlt => ?_
      rwa [List.idxOf_append_of_mem (List.mem_eraseDups.1 ha),
        List.idxOf_append_of_mem (List.mem_eraseDups.1 hb)]
    · split <;> simp
    · intro a ha b hb
      have ha := List.mem_eraseDups.1 ha
      split at hb
      · exact absurd hb List.not_mem_nil
      · rename_i hnew
        obtain rfl := List.mem_singleton.1 hb
        rw [List.idxOf_append_of_mem ha, List.idxOf_append_of_notMem hnew]
        exact Nat.lt_of_lt_of_le (List.idxOf_lt_length_iff.2 ha) (Nat.le_add_right _ _)

/-- **A list of texts grows as it should.** -/
theorem extended_extendTexts (own given : List String) :
    Extended own given (extendTexts own given) := by
  constructor
  · rintro rfl
    rfl
  · intro hne
    rw [extendTexts, if_neg (by simpa using hne)]
    exact ⟨nodup_eraseDups _, fun text => by simp [List.mem_eraseDups], pairwise_eraseDups _⟩

example : extendTexts ["vendor", "dist", "vendor"] ["dist", "out"] = ["vendor", "dist", "out"] := by
  decide

/-- Distinct entries are all kept. -/
theorem eraseDups_of_nodup {texts : List String} (h : texts.Nodup) : texts.eraseDups = texts := by
  induction texts using List.reverseRecOn with
  | nil => rfl
  | append_singleton texts text ih =>
    obtain ⟨htexts, -, hnew⟩ := List.nodup_append.1 h
    have hnot : text ∉ texts := fun hmem => hnew text hmem text (List.mem_singleton_self _) rfl
    rw [eraseDups_snoc, if_neg hnot, ih htexts]

/-- **To add the same again adds nothing.** -/
theorem extendTexts_again (own given : List String) :
    extendTexts (extendTexts own given) given = extendTexts own given := by
  by_cases hne : given = []
  · subst hne
    rfl
  · have hjoined := (extended_extendTexts own given).joined hne
    have hold : given.removeAll (extendTexts own given) = [] := by
      refine List.filter_eq_nil_iff.2 fun text htext => ?_
      simp [(hjoined.mem_iff text).2 (.inr htext)]
    rw [extendTexts, if_neg (by simpa using hne), List.eraseDups_append, hold, List.eraseDups_nil,
      List.append_nil, eraseDups_of_nodup hjoined.nodup]

/-- Of texts the first of each is kept. -/
theorem distinct_textValues (texts : List String) :
    Value.distinct (textValues texts) = textValues texts.eraseDups := by
  induction texts using List.reverseRecOn with
  | nil => rfl
  | append_singleton texts text ih =>
    have hfold : Value.distinct (textValues (texts ++ [text])) =
        if (Value.distinct (textValues texts)).any (·.same (.str text)) then
          Value.distinct (textValues texts)
        else Value.distinct (textValues texts) ++ [.str text] := by
      simp [Value.distinct, textValues]
    have hknown : (textValues texts.eraseDups).any (·.same (.str text)) =
        decide (text ∈ texts) := by
      rw [Bool.eq_iff_iff, decide_eq_true_iff, ← List.mem_eraseDups]
      simp [textValues, Value.same]
    rw [hfold, ih, hknown, eraseDups_snoc]
    by_cases h : text ∈ texts <;> simp [h, textValues]

/-- **A list of values that are texts grows like a list of texts.** -/
theorem extend_textValues (own given : List String) :
    extend (textValues own) given = .ok (textValues (extendTexts own given)) := by
  have hsingle : ∀ texts : List String, (textValues texts).mapM (·.single) =
      (.ok (textValues texts) : Except Misuse (List Value)) := by
    intro texts
    rw [textValues, List.mapM_map]
    exact List.mapM_pure
  unfold extend extendTexts
  split
  · rfl
  · have happend : textValues own ++ textValues given = textValues (own ++ given) :=
      List.map_append.symm
    rw [happend, hsingle]
    change Except.ok (Value.distinct (textValues (own ++ given))) = _
    rw [distinct_textValues]

/-- A list of values after more was given for it, where all of them are texts. -/
def ExtendedValues (own : List Value) (given : List String) (result : List Value) : Prop :=
  ∃ texts more, own = textValues texts ∧ result = textValues more ∧ Extended texts given more

/-! ## Settings that are replaced -/

/-- **A setting after a value was given for it**, or none. -/
structure Replaced {α : Type} (given : Option α) (own result : α) : Prop where
  taken : ∀ value, given = some value → result = value
  kept : given = none → result = own

/-- Only one result is possible. -/
theorem replaced_iff {α : Type} {given : Option α} {own result : α} :
    Replaced given own result ↔ result = given.getD own := by
  cases given with
  | none => exact ⟨fun h => h.kept rfl, fun h => ⟨fun _ hv => absurd hv (by simp), fun _ => h⟩⟩
  | some value =>
    refine ⟨fun h => h.taken value rfl, fun h => ⟨fun v hv => ?_, fun hv => absurd hv (by simp)⟩⟩
    rw [h, Option.some.inj hv]
    rfl

/-- What was given once changes nothing when it is given again. -/
theorem getD_again {α : Type} (given : Option α) (own : α) :
    given.getD (given.getD own) = given.getD own := by
  cases given <;> rfl

/-- What a text on the command line gives; an empty one gives nothing. -/
def textGiven (text : Option String) : Option Value := (given? text).map .str

/-- What a number on the command line gives. -/
def numberGiven (number : Option Int) : Option Value := number.map .int

/-- What a switch on the command line gives. -/
def switched (on value : Bool) : Option Bool := if on then some value else none

/-- What the command line gives for the form of the report; the switch outweighs the text. -/
def formGiven (o : ScanOptions) : Option Value :=
  if o.pretty then some (.str "pretty") else textGiven o.format

/-- A setting that may have no value is replaced like any other. -/
def ReplacedValue (given own result : Option Value) : Prop := Replaced (given.map some) own result

theorem replacedValue_or (given own : Option Value) : ReplacedValue given own (given.or own) := by
  rw [ReplacedValue, replaced_iff]
  cases given <;> rfl

theorem override_eq_or (own : Option Value) (text : Option String) :
    override own text = (textGiven text).or own := by
  unfold override textGiven
  cases given? text <;> rfl

theorem overrideInt_eq_or (own : Option Value) (number : Option Int) :
    overrideInt own number = (numberGiven number).or own := by
  cases number <;> rfl

theorem replaced_and_not (own on : Bool) : Replaced (switched on false) own (own && !on) := by
  rw [replaced_iff]
  cases on <;> simp [switched]

theorem replaced_or (own on : Bool) : Replaced (switched on true) own (own || on) := by
  rw [replaced_iff]
  cases on <;> simp [switched]

/-! ## All settings -/

variable (o : ScanOptions)

/-- **The settings of a scan after merging.** -/
structure ScanMerged (o : ScanOptions) (s m : ScanSettings) : Prop where
  exclude : ExtendedValues s.exclude o.exclude m.exclude
  includeExtensions : ExtendedValues s.includeExtensions o.includeExt m.includeExtensions
  includeFilenames : ExtendedValues s.includeFilenames o.includeFile m.includeFilenames
  /-- Where every rule was to be reported, the list starts with what is given. -/
  enabledRules : o.enableRule ≠ [] → ∃ rules, m.enabledRules = some rules ∧
    Joined (s.enabledRules.getD []) (o.enableRule.map Security.upperName) rules
  enabledRules_kept : o.enableRule = [] → m.enabledRules = s.enabledRules
  disabledRules :
    Extended s.disabledRules (o.disableRule.map Security.upperName) m.disabledRules
  externalConfigs : Extended s.externalConfigs o.externalConfig m.externalConfigs
  coverageXml : ReplacedValue (textGiven o.coverageXml) s.coverageXml m.coverageXml
  maxFileSizeKb : Replaced o.maxFileSizeKb s.maxFileSizeKb m.maxFileSizeKb
  skipGenerated : Replaced (switched o.includeGenerated false) s.skipGenerated m.skipGenerated
  inlineIgnore : Replaced (switched o.noInlineIgnore false) s.inlineIgnore m.inlineIgnore
  securityOnly : Replaced (switched o.securityOnly true) s.securityOnly m.securityOnly
  engine : Replaced (given? o.engine) s.engine m.engine
  externalScanner : Replaced (given? o.externalScanner) s.externalScanner m.externalScanner

/-- **The settings of the gate after merging.** -/
structure GateMerged (o : ScanOptions) (s m : GateSettings) : Prop where
  failOn : ReplacedValue (textGiven o.failOn) s.failOn m.failOn
  maxIssues : ReplacedValue (numberGiven o.maxIssues) s.maxIssues m.maxIssues
  maxFilesWithIssues :
    ReplacedValue (numberGiven o.maxFilesWithIssues) s.maxFilesWithIssues m.maxFilesWithIssues
  maxLow : ReplacedValue (numberGiven o.maxLow) s.maxLow m.maxLow
  maxMedium : ReplacedValue (numberGiven o.maxMedium) s.maxMedium m.maxMedium
  maxHigh : ReplacedValue (numberGiven o.maxHigh) s.maxHigh m.maxHigh
  maxCritical : ReplacedValue (numberGiven o.maxCritical) s.maxCritical m.maxCritical
  minCoverage : ReplacedValue (o.minCoverage.map .float) s.minCoverage m.minCoverage
  baselineReport : ReplacedValue (textGiven o.baselineReport) s.baselineReport m.baselineReport
  onlyNewIssues : Replaced (switched o.gateNewOnly true) s.onlyNewIssues m.onlyNewIssues

/-- **The settings of the report after merging.** -/
structure ReportMerged (o : ScanOptions) (s m : ReportSettings) : Prop where
  format : Replaced (formGiven o) s.format m.format
  out : ReplacedValue (textGiven o.out) s.out m.out

/-- **Settings after merging**: each of them is replaced by what the command line gives for it or
grows by that, and those for which it gives nothing are as they were. -/
structure Merged (o : ScanOptions) (s m : Settings) : Prop where
  scan : ScanMerged o s.scan m.scan
  gate : GateMerged o s.gate m.gate
  report : ReportMerged o s.report m.report

/-- The lists of these settings hold texts. Lists of rules always do. -/
structure HoldTexts (s : ScanSettings) : Prop where
  exclude : ∃ texts, s.exclude = textValues texts
  includeExtensions : ∃ texts, s.includeExtensions = textValues texts
  includeFilenames : ∃ texts, s.includeFilenames = textValues texts

/-- The settings of a scan are merged, and merging once more changes nothing. -/
theorem exists_scanMerged {s : ScanSettings} (htexts : HoldTexts s) :
    ∃ m, mergeScan o s = .ok m ∧ ScanMerged o s m ∧ mergeScan o m = .ok m := by
  obtain ⟨⟨excluded, hexcluded⟩, ⟨endings, hendings⟩, ⟨names, hnames⟩⟩ := htexts
  refine ⟨?result, ?merge, ?merged, ?again⟩
  case merge =>
    unfold mergeScan
    rw [hexcluded, hendings, hnames, extend_textValues, extend_textValues, extend_textValues,
      override_eq_or]
    rfl
  case merged =>
    refine ⟨⟨_, _, hexcluded, rfl, extended_extendTexts _ _⟩,
      ⟨_, _, hendings, rfl, extended_extendTexts _ _⟩,
      ⟨_, _, hnames, rfl, extended_extendTexts _ _⟩, ?_, ?_, extended_extendTexts _ _,
      extended_extendTexts _ _, replacedValue_or _ _, replaced_iff.2 rfl, replaced_and_not _ _,
      replaced_and_not _ _, replaced_or _ _, replaced_iff.2 rfl, replaced_iff.2 rfl⟩
    · intro hne
      exact ⟨_, if_neg (by simpa using hne), (extended_extendTexts _ _).joined (by simpa using hne)⟩
    · intro hnone
      exact if_pos (by simpa using hnone)
  case again =>
    unfold mergeScan
    simp only [extend_textValues, extendTexts_again, bind, Except.bind, pure, Except.pure,
      override_eq_or, ← Option.or_assoc, Option.or_self, getD_again, Bool.and_assoc, Bool.and_self,
      Bool.or_assoc, Bool.or_self]
    split
    · rfl
    · rw [Option.getD_some, extendTexts_again]

/-- The settings of the gate are merged, and merging once more changes nothing. -/
theorem gateMerged_mergeGate (s : GateSettings) :
    GateMerged o s (mergeGate o s) ∧ mergeGate o (mergeGate o s) = mergeGate o s := by
  unfold mergeGate
  simp only [override_eq_or, overrideInt_eq_or, ← Option.or_assoc, Option.or_self, Bool.or_assoc,
    Bool.or_self, and_true]
  exact ⟨replacedValue_or _ _, replacedValue_or _ _, replacedValue_or _ _, replacedValue_or _ _,
    replacedValue_or _ _, replacedValue_or _ _, replacedValue_or _ _, replacedValue_or _ _,
    replacedValue_or _ _, replaced_or _ _⟩

/-- The form of the report as it is given, or as it was. -/
theorem mergeReport_eq (s : ReportSettings) :
    mergeReport o s = ⟨(formGiven o).getD s.format, (textGiven o.out).or s.out⟩ := by
  unfold mergeReport formGiven textGiven
  rw [override_eq_or]
  cases o.pretty with
  | true => rfl
  | false => cases given? o.format <;> rfl

/-- The settings of the report are merged, and merging once more changes nothing. -/
theorem reportMerged_mergeReport (s : ReportSettings) :
    ReportMerged o s (mergeReport o s) ∧ mergeReport o (mergeReport o s) = mergeReport o s := by
  simp only [mergeReport_eq, getD_again, ← Option.or_assoc, Option.or_self, and_true]
  exact ⟨replaced_iff.2 rfl, replacedValue_or _ _⟩

/-- **Merging is idempotent and only extends lists.** Where the lists of the settings hold texts,
the command line can be merged with them; what comes out is merged setting by setting, and merging
the same command line again leaves it as it is. -/
theorem merge_settles (s : Settings) (htexts : HoldTexts s.scan) :
    ∃ m, merge o s = .ok m ∧ Merged o s m ∧ merge o m = .ok m := by
  obtain ⟨scan, hmerge, hscan, hagain⟩ := exists_scanMerged o htexts
  obtain ⟨hgate, hgateAgain⟩ := gateMerged_mergeGate o s.gate
  obtain ⟨hreport, hreportAgain⟩ := reportMerged_mergeReport o s.report
  refine ⟨⟨scan, mergeGate o s.gate, mergeReport o s.report⟩, ?_, ⟨hscan, hgate, hreport⟩, ?_⟩
  · rw [merge, hmerge]
    rfl
  · rw [merge, hagain, hgateAgain, hreportAgain]
    rfl

/-- Settings in which a folder is listed twice. -/
def listedTwice : Settings :=
  { scan := { exclude := textValues ["vendor", "dist", "vendor"], disabledRules := ["SS004"] } }

/-- A command line that repeats a folder and a rule, and gives the form of the report twice. -/
def repeating : ScanOptions :=
  { exclude := ["dist", "out"], disableRule := ["ss007", "SS004"], enableRule := ["ss001"]
    format := some "json", pretty := true }

theorem merge_settles_listedTwice : HoldTexts listedTwice.scan ∧
    ∃ m, merge repeating listedTwice = .ok m ∧ Merged repeating listedTwice m ∧
      merge repeating m = .ok m := by
  have htexts : HoldTexts listedTwice.scan := ⟨⟨_, rfl⟩, ⟨_, rfl⟩, ⟨_, rfl⟩⟩
  exact ⟨htexts, merge_settles repeating listedTwice htexts⟩

end CodeAudit.Settings
