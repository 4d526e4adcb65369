import CodeAudit.Gate
import CodeAudit.Proofs.Baseline.RoundTrip

/-!
# What a JSON report says

A reader of reports (`read?`, `issues?`, `filesScanned?`) that shares nothing with the writer but
the names of the members. A report that could be written says of a result exactly its issues and
the number of its files (`issues?_report`, `filesScanned?_report`), so two results with one report
have these in common (`eq_of_report_eq`).
-/

namespace CodeAudit

/-! ## Values that can be written -/

namespace Json

/-- Items can be written if each of them can. -/
theorem itemsWritable_iff {items : List Json} :
    itemsWritable items = true ↔ ∀ j ∈ items, j.isWritable = true := by
  induction items with
  | nil => simp [itemsWritable]
  | cons j rest ih => simp [itemsWritable, ih]

/-- Members can be written if the value of each can. -/
theorem membersWritable_iff {members : List (String × Json)} :
    membersWritable members = true ↔ ∀ m ∈ members, m.2.isWritable = true := by
  induction members with
  | nil => simp [membersWritable]
  | cons m rest ih => simp [membersWritable, ih]

/-- The writer and the reader of whole numbers have one limit. -/
theorem fitsReader_of_isWritable {n : Int} (h : Number.isWritable n = true) : FitsReader n := by
  unfold Number.isWritable at h
  unfold FitsReader
  generalize Nat.pow 10 Number.maxDigits = limit at h ⊢
  exact of_decide_eq_true h

/-- **What can be written is within what the reader takes.** -/
theorem fits_of_isWritable (j : Json) : j.isWritable = true → Fits j := by
  match j with
  | null => exact fun _ => .null
  | bool b => exact fun _ => .bool b
  | float x => exact fun _ => .float x
  | str s => exact fun _ => .str s
  | int n =>
    intro h
    rw [isWritable] at h
    exact .int (fitsReader_of_isWritable h)
  | arr items =>
    intro h
    rw [isWritable, itemsWritable_iff] at h
    exact .arr fun j hj => fits_of_isWritable j (h j hj)
  | obj members =>
    intro h
    rw [isWritable, membersWritable_iff] at h
    exact .obj fun m hm => fits_of_isWritable m.2 (h m hm)
termination_by sizeOf j
decreasing_by
  · have := List.sizeOf_lt_of_mem hj
    simp only [arr.sizeOf_spec]
    omega
  · have := List.sizeOf_lt_of_mem hm
    obtain ⟨name, value⟩ := m
    simp only [obj.sizeOf_spec, Prod.mk.sizeOf_spec] at this ⊢
    omega

end Json

/-- A severity with a rank is the one with its name. -/
theorem Severity.ofName_name {s : Severity} (h : s.rank?.isSome = true) : ofName s.name = s := by
  cases s with
  | other name => exact absurd h (by simp [rank?])
  | _ => rfl

namespace Report

open Json

/-! ## Reading a report -/

/-- The value that a report file holds. -/
def read? (bytes : List UInt8) : Option Json := do
  let text ← (Text.Utf8.decode bytes).toOption
  (Json.read (Text.unifyNewlines text)).toOption

/-- The text of a member. -/
def text? (j : Json) (name : String) : Option String := (j.get? name).bind (·.str?)

/-- The coordinate in a member. -/
def coord? (j : Json) (name : String) : Option Coord := (j.get? name).bind Baseline.coord?

/-- The issue that an object of a report stands for. -/
def issue? (j : Json) : Option Issue := do
  return {
    ruleId := ← text? j "rule_id", title := ← text? j "title"
    severity := Severity.ofName (← text? j "severity"), message := ← text? j "message"
    filePath := ← text? j "file_path", line := ← coord? j "line", column := ← coord? j "column" }

/-- **The issues that a report lists.** -/
def issues? (report : Json) : Option (List Issue) := do
  let items ← (← report.get? "issues").items?
  items.mapM issue?

/-- The number of files that a report gives. -/
def filesScanned? (report : Json) : Option Int :=
  match report.get? "files_scanned" with
  | some (.int n) => some n
  | _ => none

/-! ## Reading what was written -/

variable {result other : ScanResult}

/-- A coordinate is read as it was written. -/
theorem coord?_coordValue (c : Coord) : Baseline.coord? (coordValue c) = some c := by
  cases c <;> rfl

/-- An object stands for the issue that it was made of. -/
theorem issue?_issueValue {i : Issue} (h : i.severity.rank?.isSome = true) :
    issue? (issueValue i) = some i := by
  have hline : coord? (issueValue i) "line" = some i.line := coord?_coordValue i.line
  have hcolumn : coord? (issueValue i) "column" = some i.column := coord?_coordValue i.column
  have hseverity : text? (issueValue i) "severity" = some i.severity.name := rfl
  unfold issue?
  rw [hline, hcolumn, hseverity]
  simp only [Option.bind_eq_bind, Option.bind_some, Severity.ofName_name h]
  rfl

/-- Things are read off a list in which each was written as it is read. -/
theorem mapM_map_eq_some {α β : Type} {write : α → β} {read : β → Option α} {l : List α}
    (h : ∀ a ∈ l, read (write a) = some a) : (l.map write).mapM read = some l := by
  induction l with
  | nil => rfl
  | cons a l ih =>
    have hrest := ih fun b hb => h b (List.mem_cons_of_mem a hb)
    rw [List.map_cons, List.mapM_cons, h a List.mem_cons_self, hrest]
    rfl

/-- The objects of a list of issues stand for the issues. -/
theorem mapM_issue? {issues : List Issue} (h : ∀ i ∈ issues, i.severity.rank?.isSome = true) :
    (issues.map issueValue).mapM issue? = some issues :=
  mapM_map_eq_some fun i hi => issue?_issueValue (h i hi)

/-- **A report that was written is read back.** -/
theorem read?_report (h : (data result).isWritable = true) :
    read? (Text.Utf8.encode (render .json result).toList) = some (readBack (data result)) := by
  have hread : Json.read (render .json result).toList = .ok (readBack (data result)) :=
    read_indented (fits_of_isWritable _ h)
  have hlines : Text.unifyNewlines (render .json result).toList = (render .json result).toList :=
    Text.unifyNewlines_of_not_mem (return_not_mem_indented _)
  unfold read?
  rw [Text.Utf8.decode_encode]
  show (Json.read (Text.unifyNewlines (render .json result).toList)).toOption = _
  rw [hlines, hread]
  rfl

/-- **It lists the issues of its result.** -/
theorem issues?_report (h : ∀ i ∈ result.issues, i.severity.rank?.isSome = true) :
    issues? (readBack (data result)) = some result.issues := by
  obtain ⟨members, hdata, hnodup, hissues⟩ := Baseline.exists_members_data result
  have hget : (readBack (data result)).get? "issues" =
      some (.arr (result.issues.map issueValue)) := by
    rw [hdata, readBack_obj hnodup]
    exact hissues
  unfold issues?
  rw [hget]
  exact mapM_issue? h

/-- It gives the number of its files. -/
theorem filesScanned?_report (result : ScanResult) :
    filesScanned? (readBack (data result)) = some result.filesScanned := by
  obtain ⟨members, hdata, hnodup, -⟩ := Baseline.exists_members_data result
  have hfirst : members.head? = some ("files_scanned", .int result.filesScanned) := by
    rw [data, obj.injEq] at hdata
    rw [← hdata]
    rfl
  obtain ⟨rest, rfl⟩ := List.head?_eq_some_iff.1 hfirst
  have hget : (readBack (data result)).get? "files_scanned" =
      some (readBack (.int result.filesScanned)) := by
    rw [hdata, readBack_obj hnodup]
    rfl
  unfold filesScanned?
  rw [hget, readBack]

/-- **Results with one report have their issues and the number of their files in common.** -/
theorem eq_of_report_eq (h : (data result).isWritable = true)
    (hseverities : ∀ i ∈ result.issues, i.severity.rank?.isSome = true)
    (h' : (data other).isWritable = true)
    (hseverities' : ∀ i ∈ other.issues, i.severity.rank?.isSome = true)
    (heq : render .json result = render .json other) :
    result.issues = other.issues ∧ result.filesScanned = other.filesScanned := by
  have hback : readBack (data result) = readBack (data other) := by
    have hread := read?_report h
    rw [heq, read?_report h'] at hread
    exact (Option.some.inj hread).symm
  have hissues := issues?_report hseverities
  have hfiles := filesScanned?_report result
  rw [hback, issues?_report hseverities'] at hissues
  rw [hback, filesScanned?_report] at hfiles
  exact ⟨(Option.some.inj hissues).symm, (Option.some.inj hfiles).symm⟩

end Report

end CodeAudit
