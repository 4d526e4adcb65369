import CodeAudit.Proofs.Syntax.Trees
import CodeAudit.Scan.Basic

/-!
# Issues at nodes, and where they are seen

Risky calls, broad handlers and misnamed definitions are reported at a node of the syntax tree. The
node starts at one character of the file, and the issue carries that character's place as the parser
counts it: line feeds, and bytes. Comments that silence a line are found by the line as it is seen.
The two lines are one exactly if every line before the character ends with a line feed; only then is
the comment beside the node the one that counts (`node_issue_seen_iff`).
-/

namespace CodeAudit

open Text Syntax

/-! ## Comments on lines -/

namespace Scan

variable {lines : List (List Char)} {i : Issue} {m n : Nat}

/-- Whether a line has a comment that silences a rule. -/
def silences (line : List Char) (ruleId : String) : Bool :=
  (silencedRules? line).any fun rules => rules.contains everyRule || isMeant rules ruleId

theorem find?_silenced :
    ((lines.zipIdx m).filterMap fun (line, n) =>
        (silencedRules? line).map fun rules => (n, rules)).find?
      (fun l => (l.1 : Int) == (n : Int)) =
      if n < m then none else (lines[n - m]?.bind silencedRules?).map fun rules => (n, rules) := by
  induction lines generalizing m with
  | nil => simp
  | cons line lines ih =>
    have hlater : n ≠ m →
        (if n < m + 1 then none
          else (lines[n - (m + 1)]?.bind silencedRules?).map fun rules => (n, rules)) =
        if n < m then none
          else ((line :: lines)[n - m]?.bind silencedRules?).map fun rules => (n, rules) := by
      intro hne
      rcases Nat.lt_or_gt_of_ne hne with hlt | hgt
      · rw [if_pos hlt, if_pos (by omega)]
      · rw [if_neg (by omega), if_neg (by omega), show n - m = n - (m + 1) + 1 by omega,
          List.getElem?_cons_succ]
    rw [List.zipIdx_cons]
    cases hrules : silencedRules? line with
    | none =>
      rw [List.filterMap_cons_none (by simp [hrules]), ih]
      rcases eq_or_ne n m with rfl | hne
      · simp [hrules]
      · exact hlater hne
    | some rules =>
      rw [List.filterMap_cons_some (b := (m, rules)) (by simp [hrules])]
      rcases eq_or_ne n m with rfl | hne
      · simp [hrules]
      · rw [List.find?_cons_of_neg (by simp only [beq_iff_eq]; omega), ih]
        exact hlater hne

/-- **An issue is silenced by the comment on the line it names.** -/
theorem isSilenced_eq {text : List Char} (hline : i.line = (n + 1 : Nat)) :
    isSilenced (silencedLines text) i = (splitLines text)[n]?.any (silences · i.ruleId) := by
  have hvalue : i.line.value = ((n + 1 : Nat) : Int) := by rw [hline]; rfl
  unfold isSilenced silencedLines
  rw [hvalue, find?_silenced, if_neg (by omega), Nat.add_sub_cancel]
  cases (splitLines text)[n]? with
  | none => rfl
  | some line =>
    simp only [Option.bind_some, Option.any_some, silences]
    cases silencedRules? line <;> rfl

end Scan

namespace Checks

namespace Python

variable {f : SourceFile} {n : Node} {i : Issue}

/-- The rules whose issues are reported at single nodes, the bounds on functions apart. -/
def nodeRules : List RuleInfo :=
  [Catalogue.dynamicExecution, Catalogue.broadExcept, Catalogue.shellTrue, Catalogue.yamlLoad,
    Catalogue.pickleLoad, Catalogue.verifyFalse, Catalogue.pythonFunctionName,
    Catalogue.pythonClassName]

/-! ## Issues of nodes -/

/-- The nodes without a place have no issues. -/
theorem isPlaced_of_mem_nodeIssues (h : i ∈ nodeIssues f n) : n.label.isPlaced = true := by
  cases n with
  | mk label span parts =>
    cases label with
    | module => cases h
    | arguments => cases h
    | _ => rfl

theorem exists_atNode_of_mem_functionIssues {name : String} (h : i ∈ functionIssues f n name) :
    ∃ r message, i = atNode f r n message := by
  simp only [functionIssues, List.mem_append, List.mem_ite_nil_left, List.mem_ite_nil_right,
    List.mem_singleton] at h
  rcases h with (⟨_, h⟩ | ⟨_, h⟩) | ⟨_, h⟩
  · exact ⟨_, _, h⟩
  · exact ⟨_, _, h⟩
  · exact ⟨_, _, h⟩

/-- The issues of a node are at its place. -/
theorem exists_atNode_of_mem_nodeIssues (h : i ∈ nodeIssues f n) :
    ∃ r message, i = atNode f r n message := by
  have hreport : ∀ {c : Prop} [Decidable c] {r : RuleInfo} {message : String},
      i ∈ (if c then [atNode f r n message] else []) → ∃ r message, i = atNode f r n message := by
    intro c _ r message h
    rw [List.mem_ite_nil_right, List.mem_singleton] at h
    exact ⟨r, message, h.2⟩
  simp only [nodeIssues, List.mem_append] at h
  rcases h with (((((h | h) | h) | h) | h) | h) | h
  · split at h
    · exact hreport h
    · cases h
  · exact hreport h
  · exact hreport h
  · exact hreport h
  · exact hreport h
  · exact hreport h
  · split at h
    · exact exists_atNode_of_mem_functionIssues h
    · exact hreport h
    · cases h

/-! ## Issues of other rules -/

theorem not_mem_nodeRules {r : RuleInfo} {path message : String} {line column : Coord}
    (hr : r.id ∉ nodeRules.map (·.id)) :
    (r.issue path line column message).ruleId ∉ nodeRules.map (·.id) := hr

theorem ruleId_of_mem_workItems (h : i ∈ workItems f) : i.ruleId = Catalogue.workItem.id := by
  obtain ⟨⟨line, k⟩, _, h⟩ := List.mem_filterMap.1 h
  obtain ⟨m, _, rfl⟩ := Option.map_eq_some_iff.1 h
  rfl

theorem ruleId_of_mem_secrets {signs : String} (h : i ∈ secrets signs f) :
    i.ruleId = Catalogue.hardcodedSecret.id := by
  obtain ⟨⟨line, k⟩, _, h⟩ := List.mem_filterMap.1 h
  rw [Option.ite_none_right_eq_some, Option.some.injEq] at h
  rw [← h.2]
  rfl

theorem ruleId_of_mem_classIssues {name : String} (h : i ∈ classIssues f n name) :
    i.ruleId = Catalogue.pythonManyMethods.id ∨ i.ruleId = Catalogue.pythonCohesion.id := by
  simp only [classIssues, List.mem_append] at h
  rcases h with h | h
  · rw [List.mem_ite_nil_right, List.mem_singleton] at h
    exact .inl (h.2 ▸ rfl)
  · split at h
    · rw [List.mem_ite_nil_right, List.mem_singleton] at h
      exact .inr (h.2 ▸ rfl)
    · cases h

theorem not_mem_moduleIssues {tree : Node} (hrule : i.ruleId ∈ nodeRules.map (·.id)) :
    i ∉ moduleIssues f tree := by
  intro h
  simp only [moduleIssues, List.mem_append, List.mem_ite_nil_right, List.mem_singleton] at h
  rcases h with (⟨_, rfl⟩ | ⟨_, rfl⟩) | h
  · exact not_mem_nodeRules (by decide) hrule
  · exact not_mem_nodeRules (by decide) hrule
  · obtain ⟨m, _, h⟩ := List.mem_flatMap.1 h
    split at h
    · rcases ruleId_of_mem_classIssues h with hid | hid
      · exact absurd (hid ▸ hrule) (by decide)
      · exact absurd (hid ▸ hrule) (by decide)
    · cases h

/-- An issue of one of these rules is one of a node of the syntax tree. -/
theorem exists_node_of_mem_check (h : i ∈ check f) (hrule : i.ruleId ∈ nodeRules.map (·.id)) :
    ∃ tree n, parse f.text = .ok tree ∧ n ∈ tree.walk ∧ i ∈ nodeIssues f n := by
  simp only [check, List.mem_append] at h
  rcases h with (h | h) | h
  · exact absurd (ruleId_of_mem_workItems h ▸ hrule) (by decide)
  · exact absurd (ruleId_of_mem_secrets h ▸ hrule) (by decide)
  · unfold treeIssues at h
    split at h
    · rw [List.mem_singleton] at h
      exact absurd (h ▸ hrule) (not_mem_nodeRules (by decide))
    next tree htree =>
      simp only [List.mem_append, List.mem_ite_nil_right, List.mem_singleton] at h
      rcases h with (h | ⟨_, rfl⟩) | h
      · obtain ⟨m, hm, h⟩ := List.mem_flatMap.1 h
        exact ⟨tree, m, htree, hm, h⟩
      · exact absurd hrule (not_mem_nodeRules (by decide))
      · exact absurd h (not_mem_moduleIssues hrule)

/-- An issue of one of these rules carries the place of one character, at which its node starts. -/
theorem exists_place_of_mem_check (h : i ∈ check f) (hrule : i.ruleId ∈ nodeRules.map (·.id)) :
    ∃ tree n k, parse f.text = .ok tree ∧ n ∈ tree.walk ∧ i ∈ nodeIssues f n ∧
      (∀ j, StandsAt f.text j n.span.line n.span.col ↔ j = k) ∧
      i.line = feedLine (f.text.take k) ∧
      i.column = (byteColumn (f.text.take k) - n.span.shift + 1 : Nat) := by
  obtain ⟨tree, n, htree, hn, hi⟩ := exists_node_of_mem_check h hrule
  obtain ⟨k, hk⟩ := exists_standsAt_of_mem_walk htree hn (isPlaced_of_mem_nodeIssues hi)
  obtain ⟨r, message, hat⟩ := exists_atNode_of_mem_nodeIssues hi
  have hstands := (hk k).2 rfl
  refine ⟨tree, n, k, htree, hn, hi, hk, ?_, ?_⟩
  · rw [hat, hstands.line_eq]
    rfl
  · rw [hat, hstands.col_eq]
    rfl

end Python

/-! ## Where issues are seen -/

open Python Scan

variable {i : Issue} {before : List Char} {shift : Nat}

theorem coord_inj {a b : Nat} : ((a : Coord) = b) ↔ a = b := by
  rw [Coord.number.injEq]
  exact Int.ofNat_inj

theorem line_eq_seenLine_iff (hline : i.line = feedLine before) :
    i.line = seenLine before ↔ ∀ x ∈ before, isLineEnd x = true → x = '\n' := by
  rw [hline, coord_inj]
  exact feedLine_eq_seenLine

theorem place_eq_seen_iff (hline : i.line = feedLine before)
    (hcolumn : i.column = (byteColumn before - shift + 1 : Nat)) :
    i.line = seenLine before ∧ i.column = seenColumn before ↔
      (∀ x ∈ before, isLineEnd x = true → x = '\n') ∧
        Utf8.width (sinceLast isLineEnd before) - shift = (sinceLast isLineEnd before).length := by
  rw [line_eq_seenLine_iff hline, hcolumn, coord_inj]
  refine and_congr_right fun hfeeds => ?_
  rw [byteColumn, sinceLast_newline hfeeds, seenColumn, Nat.add_right_cancel_iff]

/-- **An issue at a node is where a reader sees the node** exactly if the two ways of counting agree
before it. The node starts at one character of the file, which is seen in a line. The issue names
that line if and only if every line before ends with a line feed, and its column as well if and only
if, besides, the bytes before the node on the line, as far as they are reported, are as many as the
characters. The comment that counts is the one on the line that line feeds count, so the one beside
the node if the issue names its line. -/
theorem node_issue_seen_iff (path : Path) (bytes : List UInt8) (i : Issue)
    (h : i ∈ Python.check (SourceFile.of path (textOf bytes)))
    (hrule : i.ruleId ∈ nodeRules.map (·.id)) :
    ∃ tree n before c line, parse (textOf bytes) = .ok tree ∧ n ∈ tree.walk ∧
      i ∈ nodeIssues (SourceFile.of path (textOf bytes)) n ∧
      (∀ k, StandsAt (textOf bytes) k n.span.line n.span.col ↔ k = before.length) ∧
      i.line = feedLine before ∧
      i.column = (byteColumn before - n.span.shift + 1 : Nat) ∧
      SeenIn (textOf bytes) before c line ∧
      (i.line = seenLine before ↔ ∀ x ∈ before, isLineEnd x = true → x = '\n') ∧
      (i.line = seenLine before ∧ i.column = seenColumn before ↔
        (∀ x ∈ before, isLineEnd x = true → x = '\n') ∧
          Utf8.width (sinceLast isLineEnd before) - n.span.shift =
            (sinceLast isLineEnd before).length) ∧
      (n.span.shift = 0 → (Utf8.width (sinceLast isLineEnd before) - n.span.shift =
          (sinceLast isLineEnd before).length ↔
        ∀ x ∈ sinceLast isLineEnd before, x.toNat < 0x80)) ∧
      isSilenced (silencedLines (textOf bytes)) i =
        (splitLines (textOf bytes))[feedLine before - 1]?.any (silences · i.ruleId) ∧
      (i.line = seenLine before →
        isSilenced (silencedLines (textOf bytes)) i = silences line i.ruleId) := by
  obtain ⟨tree, n, k, htree, hn, hi, hk, hline, hcolumn⟩ := exists_place_of_mem_check h hrule
  have hlt : k < (textOf bytes).length := ((hk k).2 rfl).lt
  have hreturn : '\r' ∉ textOf bytes := not_mem_unifyNewlines
  obtain ⟨c, line, hseen⟩ := exists_seenIn hreturn hlt
  refine ⟨tree, n, (textOf bytes).take k, c, line, htree, hn, hi, ?_, hline, hcolumn, hseen,
    line_eq_seenLine_iff hline, place_eq_seen_iff hline hcolumn, fun hshift => ?_,
    isSilenced_eq hline, fun hright => ?_⟩
  · rw [List.length_take_of_le (Nat.le_of_lt hlt)]
    exact hk
  · rw [hshift, Nat.sub_zero]
    exact width_eq_length
  · have hshown : (splitLines (textOf bytes))[((textOf bytes).take k).countP isLineEnd]? =
        some line := hseen.line_eq
    rw [isSilenced_eq hright, hshown, Option.any_some]

/-- A call, and beside it a comment that silences every rule. -/
def silencedCall : List Char :=
  ['e', 'v', 'a', 'l', '(', ')', '#', 's', 'u', 'p', 'e', 'r', 's', 'o', 'n', 'a', 'r', ':',
    'i', 'g', 'n', 'o', 'r', 'e']

/-- The call behind a line with nothing but a form feed on it is reported on the second line. -/
theorem mem_check_silencedCall :
    Catalogue.dynamicExecution.issue "a.py" 2 1
        "Avoid eval() because it executes dynamic code." ∈
      Python.check (SourceFile.of ⟨.relative, ["a.py"]⟩
        (textOf (Utf8.encode ('\x0c' :: '\n' :: silencedCall)))) := by
  decide +kernel

/-- It is reported on the line that line feeds count; whether that is where it is seen hangs on the
form feed. -/
theorem node_issue_seen_iff_form_feed :
    (Catalogue.dynamicExecution.issue "a.py" 2 1
        "Avoid eval() because it executes dynamic code.") ∈
      Python.check (SourceFile.of ⟨.relative, ["a.py"]⟩
        (textOf (Utf8.encode ('\x0c' :: '\n' :: silencedCall)))) ∧
    "SS001" ∈ nodeRules.map (·.id) ∧
    ∃ before c line,
      SeenIn (textOf (Utf8.encode ('\x0c' :: '\n' :: silencedCall))) before c line ∧
      (2 : Coord) = feedLine before ∧
      ((2 : Coord) = seenLine before ↔ ∀ x ∈ before, isLineEnd x = true → x = '\n') := by
  have hrule : "SS001" ∈ nodeRules.map (·.id) := by decide
  obtain ⟨_, _, before, c, line, _, _, _, _, hline, _, hseen, hiff, _⟩ :=
    node_issue_seen_iff _ _ _ mem_check_silencedCall hrule
  exact ⟨mem_check_silencedCall, hrule, before, c, line, hseen, hline, hiff⟩

/-- The call is on the third line, and the comment beside it is passed over. -/
theorem node_issue_kept_beside_comment :
    ∃ i ∈ Python.check (SourceFile.of ⟨.relative, ["a.py"]⟩
        (textOf (Utf8.encode ('\x0c' :: '\n' :: silencedCall)))),
      i.ruleId ∈ nodeRules.map (·.id) ∧
      splitLines (textOf (Utf8.encode ('\x0c' :: '\n' :: silencedCall))) =
        [[], [], silencedCall] ∧
      i.line = 2 ∧ silences silencedCall i.ruleId = true ∧
      isSilenced (silencedLines (textOf (Utf8.encode ('\x0c' :: '\n' :: silencedCall)))) i =
        false := by
  refine ⟨_, mem_check_silencedCall, by decide, by decide, rfl, by decide, by decide⟩

end Checks

end CodeAudit
