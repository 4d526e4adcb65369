import CodeAudit.Proofs.Disk.Naming
import CodeAudit.Proofs.Pattern.Leftmost
import CodeAudit.Proofs.Text.Places
import CodeAudit.Proofs.Text.Trimming
import CodeAudit.Scan.Suppression

/-!
# Comments that silence a line are read as written

A comment that silences a line is a mark in any case, a gap, and names of rules with commas between
them and blanks around the commas. The mark does not overlap itself (`unbordered_ignoreMark`), so
one that stands behind a text without a mark is the one that is found, whatever the end of that text
is. What is kept of the line starts at the first name (`silencedRules?_names`), and cutting it at
its commas gives the names back (`listedRules_names`). Nothing else in a text has an entry
(`exists_mem_silencedLines_iff`).
-/

namespace CodeAudit.Scan

open Pattern Text

variable {text line before mark gap list : List Char} {rules : List String} {n : Nat}

/-! ## The mark -/

/-- The mark of a comment that silences its line. -/
def ignoreMark : List Char := "supersonar:ignore".toList

/-- The letter that a character stands for where case does not count. -/
def plainLetter (c : Char) : Char :=
  if c.toNat = 0x130 ∨ c.toNat = 0x131 then 'i'
  else if c.toNat = 0x17f then 's'
  else if c.toNat = 0x212a then 'k'
  else c.toLower

theorem plainLetter_eq {c d : Char} (hc : c ∈ ignoreMark) (h : sameLetter c d = true) :
    plainLetter d = c := by
  have hall : ignoreMark.all (fun c => c.toLower == c) = true := by decide
  have hlower : c.toLower = c := beq_iff_eq.1 (List.all_eq_true.1 hall c hc)
  have hfar : ∀ n ∈ [0x130, 0x131, 0x17f, 0x212a], d.toNat = n → d.toLower ≠ c := by
    intro n hn hd
    have hclosed : ∀ n ∈ [0x130, 0x131, 0x17f, 0x212a],
        (Char.ofNat n).toLower ∉ ignoreMark := by decide
    rw [← Char.ofNat_toNat d, hd]
    exact fun heq => hclosed n hn (heq ▸ hc)
  rw [sameLetter, hlower] at h
  rw [plainLetter]
  split_ifs with hi hs hk
  · rcases hi with hi | hi <;> simp_all
  all_goals simp_all

/-- In whatever case the mark is written, its letters are the same. -/
theorem map_plainLetter (h : InEitherCase ignoreMark mark) : mark.map plainLetter = ignoreMark := by
  have hmap : ∀ {word text : List Char}, word ⊆ ignoreMark → InEitherCase word text →
      text.map plainLetter = word := by
    intro word text hword hcase
    induction hcase with
    | nil => rfl
    | cons hd _ ih =>
      obtain ⟨hc, hword⟩ := List.cons_subset.1 hword
      rw [List.map_cons, plainLetter_eq hc hd, ih hword]
  exact hmap (List.Subset.refl _) h

/-- A text no start of which is also an end of it. -/
def Unbordered (word : List Char) : Prop :=
  ∀ n < word.length, 0 < n → word.drop n ≠ word.take (word.length - n)

instance (word : List Char) : Decidable (Unbordered word) :=
  inferInstanceAs (Decidable (∀ n < word.length, 0 < n → word.drop n ≠ word.take (word.length - n)))

theorem unbordered_ignoreMark : Unbordered ignoreMark := by decide

/-- Such a text does not stand across the start of another one like it. -/
theorem Unbordered.length_le {word a b c : List Char} (h : Unbordered word) (ha : a ≠ [])
    (heq : a ++ (word ++ b) = word ++ c) : word.length ≤ a.length := by
  by_contra hlt
  rw [Nat.not_le] at hlt
  refine h a.length hlt (List.length_pos_iff.2 ha) ?_
  have hdrop := congrArg (List.drop a.length) heq
  rw [List.drop_left, List.drop_append_of_le_length (Nat.le_of_lt hlt)] at hdrop
  have htake := congrArg (List.take (word.length - a.length)) hdrop
  rw [List.take_append_of_le_length (Nat.sub_le _ _),
    List.take_append_of_le_length (by rw [List.length_drop])] at htake
  rw [htake, List.take_of_length_le (by rw [List.length_drop])]

/-! ## Where the mark is found -/

theorem fitsBehind_ignorePattern {left : List Char} : ignorePattern.FitsBehind left text ↔
    ∃ mark rest, text = mark ++ rest ∧ InEitherCase ignoreMark mark := by
  rw [ignorePattern, fitsBehind_append]
  constructor
  · rintro ⟨mark, rest, _, rfl, hmark, -⟩
    exact ⟨mark, rest, rfl, (fits_textAnyCase.1 hmark).1⟩
  · rintro ⟨mark, rest, rfl, hmark⟩
    have hword : (textAnyCase "supersonar:ignore").Fits left mark rest [] := by
      rw [fits_textAnyCase]
      exact ⟨hmark, rfl⟩
    exact ⟨mark, rest, [], rfl, hword, [], rest, [], rfl, .inr ⟨rfl, rfl⟩⟩

/-- **A line is silenced exactly if the mark stands in it.** -/
theorem occurs_ignorePattern_iff : ignorePattern.occurs line = true ↔
    ∃ before mark rest, line = before ++ (mark ++ rest) ∧ InEitherCase ignoreMark mark := by
  rw [occurs_iff, fitsIn_iff]
  simp only [fitsBehind_ignorePattern]
  grind

/-- No mark stands across the start of the first one. -/
theorem not_fitsBehind_of_mark {a b : List Char} (hbefore : ignorePattern.occurs (a ++ b) = false)
    (hb : b ≠ []) (hmark : InEitherCase ignoreMark mark) :
    ¬ ignorePattern.FitsBehind a (b ++ (mark ++ list)) := by
  intro hfits
  obtain ⟨mark', rest, heq, hmark'⟩ := fitsBehind_ignorePattern.1 hfits
  have hlength : mark'.length ≤ b.length := by
    have hletters := congrArg (List.map plainLetter) heq
    simp only [List.map_append, map_plainLetter hmark, map_plainLetter hmark'] at hletters
    calc mark'.length = ignoreMark.length := (List.Forall₂.length_eq hmark').symm
      _ ≤ (b.map plainLetter).length :=
        unbordered_ignoreMark.length_le (mt List.map_eq_nil_iff.1 hb) hletters
      _ = b.length := List.length_map _
  -- the mark would end where the first one starts, and there is none up to there
  obtain ⟨c, hc⟩ : mark' <+: b := List.prefix_of_prefix_length_le ⟨rest, heq.symm⟩
    (List.prefix_append _ _) hlength
  have hoccurs : ignorePattern.occurs (a ++ b) = true :=
    occurs_ignorePattern_iff.2 ⟨a, mark', c, by rw [hc], hmark'⟩
  exact Bool.false_ne_true (hbefore.symm.trans hoccurs)

/-- **The first mark is the one that is found.** -/
theorem search_ignorePattern {m : Found} {q : Place} (hbefore : ignorePattern.occurs before = false)
    (hmark : InEitherCase ignoreMark mark)
    (hfound : matchAt ignorePattern (.between before (mark ++ list) []) = some (m, q)) :
    ignorePattern.search (before ++ (mark ++ list)) = some m :=
  search_append (fun _ _ heq hb => not_fitsBehind_of_mark (heq ▸ hbefore) hb hmark) hfound

/-! ## What follows the mark -/

theorem listedRules_of_blank (h : ∀ c ∈ list, isBlank c = true) :
    listedRules list = [everyRule] := by
  have hcomma : ',' ∉ list := fun hc => absurd (h _ hc) (by decide)
  rw [listedRules, pieces_of_not_mem hcomma, List.map_singleton, trim_eq_nil_iff.2 h]
  rfl

/-- A mark with nothing but blanks behind it silences every rule. -/
theorem silencedRules?_blank (hbefore : ignorePattern.occurs before = false)
    (hmark : InEitherCase ignoreMark mark) (hgap : ∀ c ∈ gap, isBlank c = true) :
    silencedRules? (before ++ (mark ++ gap)) = some [everyRule] := by
  have hsome : matchAt ignorePattern (.between before (mark ++ gap) []) ≠ none :=
    mt matchAt_eq_none_iff.1 (not_not.2 (fitsBehind_ignorePattern.2 ⟨mark, gap, rfl, hmark⟩))
  obtain ⟨⟨m, q⟩, hfound⟩ := Option.ne_none_iff_exists'.1 hsome
  rw [silencedRules?, search_ignorePattern hbefore hmark hfound, Option.map_some]
  rw [matchAt, ignorePattern, run_append, run_textAnyCase hmark] at hfound
  obtain ⟨piece, rest, kept, rfl, hfits, heq⟩ := exists_fits_of_run _ _ _ _ _ _ hfound
  obtain ⟨rfl, -⟩ := Prod.mk.inj (Option.some.inj heq)
  rcases hfits with ⟨left, list, _, _, rfl, rfl, hleft, hlist⟩ | ⟨rfl, rfl⟩
  · obtain ⟨inner, -, rfl⟩ := hlist
    have hblank : listedRules list = [everyRule] :=
      listedRules_of_blank fun c hc => hgap c (by simp [hc])
    exact congrArg some hblank
  · rfl

/-- Behind the longest gap the whole rest of the line is kept. -/
theorem run_gap_names {α : Type} {left : List Char} {k : Continue α} {r : α}
    (hgap : ∀ c ∈ gap, isBlank c = true) (hsome : gap ≠ [])
    (hstart : ∀ c, list.head? = some c → isBlank c = false) (hlist : list ≠ [])
    (hline : '\n' ∉ list)
    (hk : k (.between (left ++ gap ++ list) [] [⟨1, (left ++ gap).length, list⟩]) = some r) :
    run (blanks1 ++ capture 1 (plus anyChar)) (.between left (gap ++ list) []) k = some r := by
  have hany : ∀ c ∈ list, (c != '\n') = true :=
    fun c hc => bne_iff_ne.2 fun heq => hline (heq ▸ hc)
  have hkept : run (capture 1 (plus anyChar)) (.between (left ++ gap) (list ++ []) []) k = some r :=
    run_capture_many_one hany nofun (List.length_pos_iff.2 hlist) hk
  rw [List.append_nil] at hkept
  exact run_many_one hgap hstart (List.length_pos_iff.2 hsome) hkept

/-- **What is read behind a mark and a gap** is the rest of the line. -/
theorem silencedRules?_names (hbefore : ignorePattern.occurs before = false)
    (hmark : InEitherCase ignoreMark mark) (hgap : ∀ c ∈ gap, isBlank c = true) (hsome : gap ≠ [])
    (hstart : ∀ c, list.head? = some c → isBlank c = false) (hlist : list ≠ [])
    (hline : '\n' ∉ list) :
    silencedRules? (before ++ (mark ++ (gap ++ list))) = some (listedRules list) := by
  let kept : Capture := ⟨1, (before ++ mark ++ gap).length, list⟩
  let stop : Place := .between (before ++ mark ++ gap ++ list) [] [kept]
  have hfound : matchAt ignorePattern (.between before (mark ++ (gap ++ list)) []) =
      some (⟨before.length, stop.position, [kept]⟩, stop) := by
    rw [matchAt, ignorePattern, run_append, run_textAnyCase hmark]
    exact run_maybe_of_run (run_gap_names hgap hsome hstart hlist hline rfl)
  rw [silencedRules?, search_ignorePattern hbefore hmark hfound]
  rfl

/-! ## The names -/

/-- **A name as it is listed**, with blanks around it. -/
structure ListedName where
  left : List Char
  name : List Char
  right : List Char
  left_blank : ∀ c ∈ left, isBlank c = true
  right_blank : ∀ c ∈ right, isBlank c = true
  name_ne_nil : name ≠ []
  comma_not_mem : ',' ∉ name
  trim_name : trim name = name

namespace ListedName

/-- How a name stands between the commas. -/
def written (l : ListedName) : List Char := l.left ++ l.name ++ l.right

/-- The rule that is meant. -/
def rule (l : ListedName) : String := String.ofList (upper l.name)

theorem trim_written (l : ListedName) : trim l.written = l.name :=
  (trim_surrounded l.left_blank l.right_blank).trans l.trim_name

theorem comma_not_mem_written (l : ListedName) : ',' ∉ l.written := by
  have hblank : ¬ isBlank ',' = true := by decide
  simp only [written, List.mem_append, not_or]
  exact ⟨⟨mt (l.left_blank _) hblank, l.comma_not_mem⟩, mt (l.right_blank _) hblank⟩

end ListedName

/-- Names with commas between them. -/
def namesText (names : List ListedName) : List Char := [','].intercalate (names.map (·.written))

/-- **Cutting a list at its commas gives its names back.** -/
theorem listedRules_namesText {names : List ListedName} (hnames : names ≠ []) :
    listedRules (namesText names) = names.map (·.rule) := by
  have hcomma : ∀ piece ∈ names.map (·.written), ',' ∉ piece := by
    intro piece hpiece
    obtain ⟨l, -, rfl⟩ := List.mem_map.1 hpiece
    exact l.comma_not_mem_written
  have hpieces : (pieces ',' (namesText names)).map trim = names.map (·.name) := by
    rw [namesText, pieces_intercalate_of_not_mem (mt List.map_eq_nil_iff.1 hnames) hcomma,
      List.map_map]
    exact List.map_congr_left fun l _ => l.trim_written
  have hfilter : (names.map (·.name)).filter (· ≠ []) = names.map (·.name) := by
    refine List.filter_eq_self.2 fun name hname => ?_
    obtain ⟨l, -, rfl⟩ := List.mem_map.1 hname
    exact decide_eq_true l.name_ne_nil
  rw [listedRules, hpieces, hfilter]
  split
  next hnil => exact absurd (List.map_eq_nil_iff.1 hnil) hnames
  next => rw [List.map_map]; rfl

theorem namesText_cons (l : ListedName) (others : List ListedName) :
    ∃ rest, namesText (l :: others) = l.written ++ rest ∧
      ∀ l' : ListedName, namesText (l' :: others) = l'.written ++ rest := by
  cases others with
  | nil => exact ⟨[], by simp [namesText], by simp [namesText]⟩
  | cons next others =>
    refine ⟨',' :: namesText (next :: others), ?_, fun l' => ?_⟩ <;>
      simp [namesText, List.intercalate_cons_cons]

/-- **The names behind a mark are the rules that it silences.** -/
theorem silencedRules?_namesText {names : List ListedName}
    (hbefore : ignorePattern.occurs before = false) (hmark : InEitherCase ignoreMark mark)
    (hgap : ∀ c ∈ gap, isBlank c = true) (hsome : gap ≠ []) (hnames : names ≠ [])
    (hline : '\n' ∉ namesText names) :
    silencedRules? (before ++ (mark ++ (gap ++ namesText names))) = some (names.map (·.rule)) := by
  obtain ⟨l, others, rfl⟩ := List.exists_cons_of_ne_nil hnames
  -- the blanks before the first name are taken with the gap
  let first : ListedName := { l with left := [], left_blank := nofun }
  obtain ⟨rest, hl, hfirst⟩ := namesText_cons l others
  have hsplit : namesText (l :: others) = l.left ++ namesText (first :: others) := by
    rw [hl, hfirst, ListedName.written, ListedName.written, List.append_assoc, List.append_assoc,
      List.append_assoc]
    rfl
  have hname : namesText (first :: others) = l.name ++ (l.right ++ rest) := by
    rw [hfirst, ListedName.written, List.append_assoc]
    rfl
  obtain ⟨c, name, hc⟩ := List.exists_cons_of_ne_nil l.name_ne_nil
  have hstart : ∀ d, (namesText (first :: others)).head? = some d → isBlank d = false := by
    intro d hd
    have hhead : (trim l.name).head? = some d := by
      rw [l.trim_name, hc]
      rwa [hname, hc] at hd
    exact isBlank_of_head?_trim hhead
  rw [hsplit, ← List.append_assoc gap, silencedRules?_names hbefore hmark
    (List.forall_mem_append.2 ⟨hgap, l.left_blank⟩) (List.append_ne_nil_of_left_ne_nil hsome _)
    hstart (by simp [hname, hc]) (fun hmem => hline (hsplit ▸ List.mem_append_right _ hmem)),
    listedRules_namesText (List.cons_ne_nil _ _)]
  rfl

/-! ## The lines of a text -/

theorem mem_silencedLines : (n, rules) ∈ silencedLines text ↔
    ∃ k line, n = k + 1 ∧ (splitLines text)[k]? = some line ∧ silencedRules? line = some rules := by
  rw [silencedLines, List.mem_filterMap]
  constructor
  · rintro ⟨⟨line, m⟩, hline, hrules⟩
    obtain ⟨hle, hget⟩ := List.mk_mem_zipIdx_iff_le_and_getElem?_sub.1 hline
    obtain ⟨rules', hrules', heq⟩ := Option.map_eq_some_iff.1 hrules
    obtain ⟨rfl, rfl⟩ := Prod.mk.inj heq
    exact ⟨m - 1, line, (Nat.sub_add_cancel hle).symm, hget, hrules'⟩
  · rintro ⟨k, line, rfl, hget, hrules⟩
    refine ⟨(line, k + 1), List.mk_mem_zipIdx_iff_le_and_getElem?_sub.2 ⟨by omega, hget⟩, ?_⟩
    simp only [hrules, Option.map_some]

theorem exists_silencedRules?_iff :
    (∃ rules, silencedRules? line = some rules) ↔ ignorePattern.occurs line = true := by
  rw [← Option.isSome_iff_exists, silencedRules?, Option.isSome_map, occurs]

/-- **The lines with a mark are the ones that have an entry.** -/
theorem exists_mem_silencedLines_iff : (∃ rules, (n, rules) ∈ silencedLines text) ↔
    ∃ k line, n = k + 1 ∧ (splitLines text)[k]? = some line ∧ ignorePattern.occurs line = true := by
  simp only [mem_silencedLines, ← exists_silencedRules?_iff]
  grind

theorem mem_silencedLines_of_line {k : Nat} {found : List String}
    (hline : (splitLines text)[k]? = some line) (hrules : silencedRules? line = some found) :
    (k + 1, rules) ∈ silencedLines text ↔ rules = found := by
  rw [mem_silencedLines]
  grind

/-- **Comments that silence a line are read as written.** The lines with a mark have entries, under
their numbers from one on. A mark in any case, behind a text without one, silences every rule if
nothing but blanks follows, and else the rules that are listed behind a gap. -/
theorem silencedLines_read_as_written (text : List Char) :
    (∀ n, (∃ rules, (n, rules) ∈ silencedLines text) ↔
      ∃ k line, n = k + 1 ∧ (splitLines text)[k]? = some line ∧
        ignorePattern.occurs line = true) ∧
    ∀ k before mark gap, ignorePattern.occurs before = false → InEitherCase ignoreMark mark →
      (∀ c ∈ gap, isBlank c = true) →
      ((splitLines text)[k]? = some (before ++ (mark ++ gap)) →
        ∀ rules, (k + 1, rules) ∈ silencedLines text ↔ rules = [everyRule]) ∧
      ∀ names, gap ≠ [] → names ≠ [] →
        (splitLines text)[k]? = some (before ++ (mark ++ (gap ++ namesText names))) →
        ∀ rules, (k + 1, rules) ∈ silencedLines text ↔ rules = names.map (·.rule) := by
  refine ⟨fun n => exists_mem_silencedLines_iff, ?_⟩
  intro k before mark gap hbefore hmark hgap
  refine ⟨fun hline rules => ?_, fun names hsome hnames hline rules => ?_⟩
  · exact mem_silencedLines_of_line hline (silencedRules?_blank hbefore hmark hgap)
  · have hfeed : '\n' ∉ namesText names := by
      intro hmem
      have hend : isLineEnd '\n' = false :=
        isLineEnd_of_mem_splitLines (List.mem_of_getElem? hline) (by simp [hmem])
      exact absurd hend (by decide)
    exact mem_silencedLines_of_line hline
      (silencedRules?_namesText hbefore hmark hgap hsome hnames hfeed)

/-- Two names with blanks around them, behind a mark that starts twice, and a mark without names. -/
def silencingExample : List Char :=
  "x # supersonarSuperSonar:IGNORE\tss101 , Mine.1 \ny\nz # supersonar:ignore  ".toList

theorem silencingExample_read :
    (∀ rules, (1, rules) ∈ silencedLines silencingExample ↔ rules = ["SS101", "MINE.1"]) ∧
      (∀ rules, (2, rules) ∉ silencedLines silencingExample) ∧
      ∀ rules, (3, rules) ∈ silencedLines silencingExample ↔ rules = [everyRule] := by
  obtain ⟨hentries, hmarks⟩ := silencedLines_read_as_written silencingExample
  -- deciding the blanks as a statement on all characters would try every one of them
  let first : ListedName :=
    ⟨[], "ss101".toList, [' '], nofun, List.all_eq_true.1 (by decide), by decide, by decide,
      by decide⟩
  let second : ListedName :=
    ⟨[' '], "Mine.1".toList, [' '], List.all_eq_true.1 (by decide),
      List.all_eq_true.1 (by decide), by decide, by decide, by decide⟩
  refine ⟨?_, fun rules hrules => ?_, ?_⟩
  · have hrules : [first, second].map (·.rule) = ["SS101", "MINE.1"] := by decide
    rw [← hrules]
    exact (hmarks 0 "x # supersonar".toList "SuperSonar:IGNORE".toList ['\t'] (by decide)
      (by decide) (List.all_eq_true.1 (by decide))).2 [first, second] (by decide) (by decide)
      (by decide)
  · obtain ⟨k, line, hk, hline, hoccurs⟩ := (hentries 2).1 ⟨rules, hrules⟩
    obtain rfl : k = 1 := (Nat.succ.inj hk).symm
    obtain rfl : ['y'] = line := Option.some.inj hline
    exact absurd hoccurs (by decide)
  · exact (hmarks 2 "z # ".toList "supersonar:ignore".toList "  ".toList (by decide) (by decide)
      (List.all_eq_true.1 (by decide))).1 (by decide)

end CodeAudit.Scan
