import CodeAudit.Proofs.Baseline.Known
import CodeAudit.Proofs.Disk.Writing
import CodeAudit.Proofs.Json.PlainText
import CodeAudit.Proofs.Json.RoundTrip
import CodeAudit.Proofs.Report.Files
import CodeAudit.Proofs.Text.Encoding
import CodeAudit.Report.Format

/-!
# A report as a baseline

The JSON report of a result, read as a baseline, gives the fingerprints of its issues. The report
goes through the writer of values, UTF-8, the disk, the reading of lines and the reader of values;
what is left to show here is that its numbers are within what the reader takes (`Readable`), that it
is not deep, that the names in it are distinct, and that an issue comes back with its fingerprint.
-/

namespace CodeAudit.Report

open Json

/-! ## The report fits -/

/-- **A result whose numbers the reader takes.** -/
structure Readable (result : ScanResult) : Prop where
  count : FitsReader result.issues.length
  filesScanned : FitsReader result.filesScanned
  issues : ∀ i ∈ result.issues, FitsReader i.line.value ∧ FitsReader i.column.value
  rate : ∀ c ∈ result.coverage, ∀ n, c.lineRate = .whole n → FitsReader n
  lines : ∀ c ∈ result.coverage, ∀ n, c.linesCovered = some n ∨ c.linesValid = some n →
    FitsReader n

variable {count : Nat} {issues : List Issue}

/-- A count fits if it is at most one that does. -/
theorem fits_countValue {n : Nat} (hcount : FitsReader count) (h : n ≤ count) :
    Fits (countValue n) :=
  .int (hcount.of_le h)

/-- A coordinate fits if its value does. -/
theorem fits_coordValue {c : Coord} (h : FitsReader c.value) : Fits (coordValue c) := by
  cases c with
  | number n => exact .int h
  | flag b => exact .bool b

/-- Without repetitions a list is no longer. -/
theorem length_eraseDups_le (texts : List String) : texts.eraseDups.length ≤ texts.length := by
  rw [length_eraseDups]
  exact List.toFinset_card_le texts

/-- There are no more files with issues than issues. -/
theorem length_filesOf_le (issues : List Issue) : (filesOf issues).length ≤ issues.length := by
  have h := length_eraseDups_le (issues.map (·.filePath))
  rwa [List.length_map] at h

/-- No text occurs more often than there are texts. -/
theorem snd_le_of_mem_tally {texts : List String} {e : String × Nat} (h : e ∈ tally texts) :
    e.2 ≤ texts.length := by
  obtain ⟨t, -, rfl⟩ := List.mem_map.1 h
  exact List.count_le_length

/-- A tally fits. -/
theorem fits_tallyValue (hcount : FitsReader count) {texts : List String}
    (h : texts.length ≤ count) : Fits (tallyValue texts) := by
  refine .obj fun m hm => ?_
  obtain ⟨e, he, rfl⟩ := List.mem_map.1 hm
  exact fits_countValue hcount (Nat.le_trans (snd_le_of_mem_tally he) h)

/-- The counts of severities fit. -/
theorem fits_severityCounts (hcount : FitsReader count) (h : issues.length ≤ count) :
    Fits (severityCounts issues) := by
  refine .obj fun m hm => ?_
  obtain ⟨s, -, rfl⟩ := List.mem_map.1 hm
  exact fits_countValue hcount (Nat.le_trans List.countP_le_length h)

/-- The files with most issues fit. -/
theorem fits_topFiles (hcount : FitsReader count) (h : issues.length ≤ count) :
    Fits (.arr ((topFiles issues).map fun (path, n) =>
      .obj [("file_path", .str path), ("issues", countValue n)])) := by
  refine .arr fun j hj => ?_
  obtain ⟨e, he, rfl⟩ := List.mem_map.1 hj
  have htally : e ∈ tally (issues.map (·.filePath)) :=
    (List.mergeSort_perm _ _).mem_iff.1 (List.mem_of_mem_take he)
  have hle := snd_le_of_mem_tally htally
  rw [List.length_map] at hle
  refine .obj fun m hm => ?_
  simp only [List.mem_cons, List.not_mem_nil, or_false] at hm
  rcases hm with rfl | rfl
  · exact .str _
  · exact fits_countValue hcount (Nat.le_trans hle h)

/-- The summary of security issues fits. -/
theorem fits_securitySummary (hcount : FitsReader count) (h : issues.length ≤ count) :
    Fits (securitySummary issues) := by
  refine .obj fun m hm => ?_
  simp only [List.mem_cons, List.not_mem_nil, or_false] at hm
  rcases hm with rfl | rfl | rfl | rfl | rfl | rfl
  · exact fits_countValue hcount h
  · exact fits_countValue hcount (Nat.le_trans (length_filesOf_le issues) h)
  · exact fits_severityCounts hcount h
  · exact fits_tallyValue hcount (by rwa [List.length_map])
  · exact fits_tallyValue hcount (by rwa [List.length_map])
  · exact fits_topFiles hcount h

/-- An issue fits if its coordinates do. -/
theorem fits_issueValue {i : Issue} (hline : FitsReader i.line.value)
    (hcolumn : FitsReader i.column.value) : Fits (issueValue i) := by
  refine .obj fun m hm => ?_
  simp only [List.mem_cons, List.not_mem_nil, or_false] at hm
  rcases hm with rfl | rfl | rfl | rfl | rfl | rfl | rfl
  iterate 5 exact .str _
  · exact fits_coordValue hline
  · exact fits_coordValue hcolumn

/-- An optional number fits if the number does. -/
theorem fits_intValue? {n : Option Int} (h : ∀ k, n = some k → FitsReader k) :
    Fits (intValue? n) := by
  cases n with
  | none => exact .null
  | some k => exact .int (h k rfl)

/-- The coverage fits, whatever doubles it holds. -/
theorem fits_coverageValue {c : Coverage} (hrate : ∀ n, c.lineRate = .whole n → FitsReader n)
    (hlines : ∀ n, c.linesCovered = some n ∨ c.linesValid = some n → FitsReader n) :
    Fits (coverageValue c) := by
  refine .obj fun m hm => ?_
  simp only [List.mem_cons, List.not_mem_nil, or_false] at hm
  rcases hm with rfl | rfl | rfl | rfl
  · cases hq : c.lineRate with
    | whole n => exact .int (hrate n hq)
    | real x => exact .float x
    | truth b => exact .bool b
  · exact .float _
  · exact fits_intValue? fun k hk => hlines k (.inl hk)
  · exact fits_intValue? fun k hk => hlines k (.inr hk)

/-- **The report of a readable result fits.** -/
theorem fits_data {result : ScanResult} (h : Readable result) : Fits (data result) := by
  refine .obj fun m hm => ?_
  simp only [List.mem_append, List.mem_cons, List.not_mem_nil, or_false, Option.mem_toList,
    Option.map_eq_some_iff] at hm
  rcases hm with (rfl | rfl | rfl | rfl | rfl | rfl | rfl) | ⟨c, hc, rfl⟩
  · exact .int h.filesScanned
  · exact fits_countValue h.count (length_filesOf_le _)
  · exact fits_countValue h.count (Nat.le_refl _)
  · exact fits_severityCounts h.count (Nat.le_refl _)
  · exact fits_tallyValue h.count (Nat.le_of_eq (List.length_map _))
  · exact fits_securitySummary h.count (List.length_filter_le _ _)
  · refine .arr fun j hj => ?_
    obtain ⟨i, hi, rfl⟩ := List.mem_map.1 hj
    exact fits_issueValue (h.issues i hi).1 (h.issues i hi).2
  · exact fits_coverageValue (h.rate c hc) (h.lines c hc)

/-! ## Its depth -/

theorem depth_tallyValue (texts : List String) : (tallyValue texts).depth ≤ 1 := by
  refine Nat.succ_le_succ (membersDepth_le_iff.2 fun m hm => ?_)
  obtain ⟨e, -, rfl⟩ := List.mem_map.1 hm
  exact Nat.le_refl 0

theorem depth_severityCounts (issues : List Issue) : (severityCounts issues).depth = 1 := rfl

theorem depth_securitySummary (issues : List Issue) : (securitySummary issues).depth ≤ 3 := by
  refine Nat.succ_le_succ (membersDepth_le_iff.2 fun m hm => ?_)
  simp only [List.mem_cons, List.not_mem_nil, or_false] at hm
  rcases hm with rfl | rfl | rfl | rfl | rfl | rfl
  · exact Nat.zero_le 2
  · exact Nat.zero_le 2
  · rw [depth_severityCounts]
    decide
  · exact Nat.le_succ_of_le (depth_tallyValue _)
  · exact Nat.le_succ_of_le (depth_tallyValue _)
  · refine Nat.succ_le_succ (itemsDepth_le_iff.2 fun j hj => ?_)
    obtain ⟨e, -, rfl⟩ := List.mem_map.1 hj
    exact Nat.le_refl 1

/-- **No report is deep.** -/
theorem depth_data (result : ScanResult) : (data result).depth ≤ 4 := by
  refine Nat.succ_le_succ (membersDepth_le_iff.2 fun m hm => ?_)
  simp only [List.mem_append, List.mem_cons, List.not_mem_nil, or_false, Option.mem_toList,
    Option.map_eq_some_iff] at hm
  rcases hm with (rfl | rfl | rfl | rfl | rfl | rfl | rfl) | ⟨c, -, rfl⟩
  iterate 3 exact Nat.zero_le 3
  · rw [depth_severityCounts]
    decide
  · exact Nat.le_trans (depth_tallyValue _) (by decide)
  · exact depth_securitySummary _
  · refine Nat.le_succ_of_le (Nat.succ_le_succ (itemsDepth_le_iff.2 fun j hj => ?_))
    obtain ⟨⟨_, _, _, _, _, line, column⟩, -, rfl⟩ := List.mem_map.1 hj
    cases line <;> cases column <;> exact Nat.le_refl 1
  · obtain ⟨rate, covered, valid⟩ := c
    refine Nat.le_trans ?_ (show 1 ≤ 3 by decide)
    cases rate <;> cases covered <;> cases valid <;> exact Nat.le_refl 1

end CodeAudit.Report

namespace CodeAudit.Baseline

open Json Report

/-! ## The report comes back -/

/-- A coordinate comes back as itself. -/
theorem readBack_coordValue (c : Coord) : readBack (coordValue c) = coordValue c := by
  cases c <;> rw [coordValue, readBack]

/-- An issue comes back as itself. -/
theorem readBack_issueValue (i : Issue) : readBack (issueValue i) = issueValue i := by
  rw [issueValue, readBack_obj (by simp)]
  simp only [List.map_cons, List.map_nil, readBack_coordValue]
  simp only [readBack]

/-- The fingerprint of an issue in a report is the fingerprint of the issue. -/
theorem fingerprint?_issueValue (i : Issue) :
    fingerprint? (issueValue i) = some i.fingerprint := by
  have hcoord : ∀ c : Coord, coord? (coordValue c) = some c := by
    intro c
    cases c <;> rfl
  have hline : (issueValue i).get? "line" = some (coordValue i.line) := rfl
  have hcolumn : (issueValue i).get? "column" = some (coordValue i.column) := rfl
  unfold fingerprint?
  rw [hline, hcolumn]
  simp only [Option.bind_eq_bind, Option.bind_some, hcoord]
  rfl

/-- The names in a report are distinct. -/
theorem exists_members_data (result : ScanResult) : ∃ members, data result = .obj members ∧
    (members.map (·.1)).Nodup ∧
    member? (members.map fun m => (m.1, readBack m.2)) "issues" =
      some (.arr (result.issues.map issueValue)) := by
  have hissues : readBack (.arr (result.issues.map issueValue)) =
      .arr (result.issues.map issueValue) := by
    rw [readBack, readBackItems_eq_map, List.map_map]
    congr 1
    exact List.map_congr_left fun i _ => readBack_issueValue i
  refine ⟨_, rfl, ?_, ?_⟩
  · cases result.coverage <;> simp
  · exact congrArg some hissues

/-- **The report of a result, read back, gives the fingerprints of its issues.** -/
theorem fingerprints_readBack_data (result : ScanResult) :
    fingerprints (readBack (data result)) =
      .ok (distinct (result.issues.map (·.fingerprint))) := by
  obtain ⟨members, hdata, hnodup, hissues⟩ := exists_members_data result
  have hfound : (result.issues.map issueValue).filterMap fingerprint? =
      result.issues.map (·.fingerprint) := by
    rw [List.filterMap_map, ← List.filterMap_eq_map]
    congr 1
    funext i
    exact fingerprint?_issueValue i
  rw [hdata, readBack_obj hnodup, fingerprints]
  simp only [hissues, hfound]

/-- **A JSON report is read as the baseline of its result**, on any stack. -/
theorem read_encode_data (stack : Stack) {result : ScanResult} (h : Readable result) :
    read stack (Text.Utf8.encode (render .json result).toList) =
      .ok (distinct (result.issues.map (·.fingerprint))) := by
  have hread := read_indented (fits_data h)
  have hdepth : (readBack (data result)).depth ≤ safeDepth :=
    Nat.le_trans (depth_readBack_le _) (Nat.le_trans (depth_data result) (by decide))
  unfold read readText
  rw [Text.Utf8.decode_encode]
  simp only [render]
  rw [Text.unifyNewlines_of_not_mem (return_not_mem_indented _),
    stack.json?_of_depth_le _ _ hread hdepth, hread]
  exact fingerprints_readBack_data result

/-! ## Through the disk -/

/-- What a text file holds is what was written into it. -/
theorem textBytes_of_writeText {d d' : Disk} {path : Path} {text : String}
    (h : d.writeText path text = .ok d') : ∃ f, d'.fileAt path = .ok f ∧
      f.bytes = Text.Utf8.encode text.toList := by
  obtain ⟨place, -, hlocate⟩ := Disk.writeText_eq_ok h
  refine ⟨Disk.rewritten (d.tree.fileAt? place) (Text.Utf8.encode text.toList), ?_, rfl⟩
  unfold Disk.fileAt
  rw [hlocate]

/-- **A file is loaded from its bytes**, if it can be read. -/
theorem load_of_fileAt {stack : Stack} {d : Disk} {path : Path} {f : File}
    (h : d.fileAt path = .ok f) :
    load stack d path =
      if f.readable then read stack f.bytes else .error (.disk ⟨.denied, d.absolute path⟩) := by
  unfold load Disk.textBytes
  rw [h]
  simp only [bind, Except.bind]
  split
  next f' hf =>
    split at hf
    · exact absurd hf (by simp [pure, Except.pure])
    · obtain rfl := Except.error.inj hf
      rw [if_neg (by assumption)]
  next bytes hbytes =>
    split at hbytes
    · obtain rfl := Except.ok.inj hbytes
      rw [if_pos (by assumption)]
    · exact absurd hbytes (by simp)

/-- **A report is a baseline that knows exactly the issues of its result.** The report of any
result with numbers within the reader's limit is read back, from its bytes and from any file it was
written into that can be read, as fingerprints that stand for the issues. With them nothing in the
result is new, and of another result exactly those issues that the first one does not have. -/
theorem report_knows_exactly_its_issues (stack : Stack) {result : ScanResult}
    (h : Readable result) :
    ∃ known, Collects known (result.issues.map (·.fingerprint)) ∧
      read stack (Text.Utf8.encode (render .json result).toList) = .ok known ∧
      (∀ {d d' : Disk} {path : Path}, d.writeText path (render .json result) = .ok d' →
        ∃ f, d'.fileAt path = .ok f ∧ (f.readable = true → load stack d' path = .ok known)) ∧
      newIssues result known = ({ result with issues := [] }, result.issues.length) ∧
      ∀ other : ScanResult, (newIssues other known).1 = { other with
        issues := other.issues.filter fun i =>
          !result.issues.any fun j => j.fingerprint.same i.fingerprint } := by
  have hcollects := collects_distinct (result.issues.map (·.fingerprint))
  have hread := read_encode_data stack h
  refine ⟨_, hcollects, hread, ?_, hcollects.newIssues_self, hcollects.newIssues_eq⟩
  intro d d' path hwrite
  obtain ⟨f, hfile, hbytes⟩ := textBytes_of_writeText hwrite
  refine ⟨f, hfile, fun hreadable => ?_⟩
  rw [load_of_fileAt hfile, if_pos hreadable, hbytes, hread]

/-- A result with a message that needs every kind of escape, a truth value for a line, a negative
column and a coverage that is not a number. -/
def escapedResult : ScanResult where
  issues := [⟨"SS001", "title", .high, "a \"b\" \\ \n\r\t\x01 é 😀", "src/a b.py", .flag true,
      .number (-4)⟩,
    ⟨"SG:x", "", .other "note", "", "", 10000000000, 0⟩]
  filesScanned := 2
  coverage := some ⟨.real (0.0 / 0.0), some (-1), none⟩

/-- Its report knows both of its issues. -/
theorem report_knows_escapedResult : Readable escapedResult ∧
    ∃ known, read .usual (Text.Utf8.encode (render .json escapedResult).toList) = .ok known ∧
      (∀ i ∈ escapedResult.issues, knows known i.fingerprint = true) ∧
      newIssues escapedResult known = ({ escapedResult with issues := [] }, 2) := by
  have hreadable : Readable escapedResult := by
    refine ⟨fitsReader_of_lt (by decide), fitsReader_of_lt (by decide), ?_, ?_, ?_⟩
    · intro i hi
      simp only [escapedResult, List.mem_cons, List.not_mem_nil, or_false] at hi
      rcases hi with rfl | rfl
      · exact ⟨fitsReader_of_lt (by decide), fitsReader_of_lt (by decide)⟩
      · exact ⟨fitsReader_of_lt (by decide), fitsReader_of_lt (by decide)⟩
    · intro c hc n hn
      obtain rfl := Option.some.inj hc
      exact absurd hn (by simp)
    · intro c hc n hn
      obtain rfl := Option.some.inj hc
      simp only [Option.some.injEq, reduceCtorEq, or_false] at hn
      exact hn ▸ fitsReader_of_lt (by decide)
  obtain ⟨known, hknown, hread, -, hself, -⟩ := report_knows_exactly_its_issues .usual hreadable
  exact ⟨hreadable, known, hread, fun i hi => hknown.knows _ (List.mem_map_of_mem hi), hself⟩

end CodeAudit.Baseline
