import CodeAudit.Proofs.Checks.Commands
import CodeAudit.Proofs.Text.Trimming
import Mathlib.Data.List.DropRight

/-!
# Comments and literals

A comment of two slashes starts at the first two slashes outside literals (`realCode`). The checks
take the code of a line to end at its first two slashes, wherever they stand. So what is left of a
line is its code exactly if its first two slashes are not in a literal (`codeOf_eq_iff`).

Six rules look at the code of single lines (`CodeRule`). Each reports a line exactly if what it is
about occurs in what is left of the line and the rule looks at such code (`reported_code_iff`).
-/

namespace CodeAudit.Checks

open Pattern Text

variable {a b line suffix : List Char}

/-! ## Where a comment starts -/

/-- What a place in a line belongs to. -/
inductive Spot where
  | code
  | literal
  /-- The place behind a backslash in a literal. -/
  | escape
  deriving Repr, DecidableEq

/-- One character further. -/
def Spot.step : Spot → Char → Spot
  | code, c => if c = '"' then literal else code
  | literal, c => if c = '"' then code else if c = '\\' then escape else literal
  | escape, _ => literal

/-- What the place behind a text belongs to. -/
def Spot.behind (s : Spot) (text : List Char) : Spot := text.foldl step s

/-- The mark of a comment. -/
def slashes : List Char := ['/', '/']

/-- What stands before the first mark outside literals, from a place on. -/
def codeFrom (s : Spot) : List Char → List Char
  | [] => []
  | c :: rest =>
    if s = .code ∧ slashes.isPrefixOf (c :: rest) = true then [] else c :: codeFrom (s.step c) rest

/-- **The code of a line**: what stands before its comment. -/
def realCode (line : List Char) : List Char := codeFrom .code line

/-- The first mark in a line stands in a literal. -/
def CutInLiteral (line : List Char) : Prop :=
  contains slashes line = true ∧ Spot.code.behind (before slashes line) ≠ .code

instance (line : List Char) : Decidable (CutInLiteral line) :=
  inferInstanceAs (Decidable (_ ∧ _))

/-- **The code of a line goes on behind the first mark exactly if that stands in a literal.** -/
theorem codeFrom_cases (s : Spot) (line : List Char) :
    codeFrom s line = before slashes line ∧
        (contains slashes line = true → s.behind (before slashes line) = .code) ∨
      (contains slashes line = true ∧ s.behind (before slashes line) ≠ .code) ∧
        ∃ rest, codeFrom s line = before slashes line ++ '/' :: rest := by
  induction line generalizing s with
  | nil => exact .inl ⟨rfl, fun h => absurd h (by decide)⟩
  | cons c rest ih =>
    rw [codeFrom, before, contains]
    by_cases hmark : slashes.isPrefixOf (c :: rest) = true
    · rw [hmark, if_pos rfl, Bool.true_or]
      by_cases hs : s = .code
      · rw [if_pos ⟨hs, rfl⟩]
        exact .inl ⟨rfl, fun _ => hs⟩
      · obtain ⟨rest', hrest⟩ := List.isPrefixOf_iff_prefix.1 hmark
        obtain rfl : '/' = c := (List.cons.inj hrest).1
        rw [if_neg fun h => hs h.1]
        exact .inr ⟨⟨rfl, hs⟩, _, rfl⟩
    · rw [if_neg fun h => hmark h.2, if_neg hmark, Bool.eq_false_iff.2 hmark, Bool.false_or]
      refine (ih (s.step c)).imp ?_ ?_
      · rintro ⟨heq, hbehind⟩
        exact ⟨congrArg (c :: ·) heq, hbehind⟩
      · rintro ⟨hcut, more, heq⟩
        exact ⟨hcut, more, congrArg (c :: ·) heq⟩

/-- The first mark in a line ends its code, or stands in a literal and in the code. -/
theorem realCode_cases (line : List Char) :
    ¬ CutInLiteral line ∧ realCode line = before slashes line ∨
      CutInLiteral line ∧ ∃ rest, realCode line = before slashes line ++ '/' :: rest := by
  refine (codeFrom_cases .code line).imp ?_ fun h => h
  rintro ⟨heq, hbehind⟩
  exact ⟨fun hcut => hcut.2 (hbehind hcut.1), heq⟩

/-! ## What is left of a line -/

theorem before_append_of_not_mem (h : '/' ∉ a) :
    before slashes (a ++ b) = a ++ before slashes b := by
  induction a with
  | nil => rfl
  | cons c a ih =>
    rw [List.mem_cons, not_or] at h
    have hmark : ¬ slashes.isPrefixOf (c :: (a ++ b)) = true := by simp [slashes, h.1]
    rw [List.cons_append, before, if_neg hmark, ih h.2, List.cons_append]

/-- The blanks at the start of a line stand before its comment. -/
theorem before_slashes_eq (line : List Char) : before slashes line =
    line.takeWhile isBlank ++ before slashes (trimStart line) := by
  have hnot : '/' ∉ line.takeWhile isBlank :=
    fun h => absurd (List.mem_takeWhile_imp h) (by decide)
  have hparts : line.takeWhile isBlank ++ trimStart line = line := List.takeWhile_append_dropWhile
  rw [← before_append_of_not_mem hnot, hparts]

theorem trimStart_before (line : List Char) :
    trimStart (before slashes line) = before slashes (trimStart line) := by
  rw [before_slashes_eq, trimStart_append_of_blank fun c hc => List.mem_takeWhile_imp hc]
  have hhead := List.head?_dropWhile_not isBlank line
  cases hstart : trimStart line with
  | nil => rfl
  | cons c rest =>
    rw [← trimStart, hstart] at hhead
    have hc : isBlank c = false := by simpa using hhead
    rw [before]
    split
    · rfl
    · exact trimStart_eq_self fun x hx => Option.some.inj hx ▸ hc

/-- **Both ways to take a comment away leave what stands before the first mark**, blanks at the
start apart. -/
theorem trimStart_withoutSlashComment (line : List Char) :
    trimStart (withoutSlashComment line) = trimStart (before slashes line) := by
  rw [withoutSlashComment]
  split
  next hmark =>
    rw [trimStart_before]
    cases hstart : trimStart line with
    | nil => rfl
    | cons c rest =>
      rw [startsWith, hstart] at hmark
      exact (if_pos hmark).symm
  next => rfl

theorem withoutComment_eq (h : String.ofList suffix ∈ slashSuffixes) (line : List Char) :
    withoutComment suffix line = trimStart (before slashes line) := by
  have hhash : ∀ s ∈ slashSuffixes, hashSuffixes.contains s = false := by decide
  have hmark : commentMark? suffix = some "//" := by
    rw [commentMark?, hhash _ h, if_neg Bool.false_ne_true, if_pos (List.contains_iff_mem.2 h)]
  rw [withoutComment, hmark, trimStart_before]
  rfl

theorem codeOf_eq (line : List Char) : codeOf line = trim (before slashes line) :=
  congrArg trimEnd (trimStart_withoutSlashComment line)

theorem trim_withoutComment (h : String.ofList suffix ∈ slashSuffixes) (line : List Char) :
    trim (withoutComment suffix line) = codeOf line := by
  rw [withoutComment_eq h, codeOf_eq]
  exact congrArg trimEnd (List.dropWhile_idempotent _ _)

/-- What is not blank is kept. -/
theorem filter_trim (text : List Char) :
    (trim text).filter (!isBlank ·) = text.filter (!isBlank ·) := by
  obtain ⟨left, right, heq, hleft, hright⟩ := exists_trim text
  have hnone : ∀ {blanks : List Char}, (∀ c ∈ blanks, isBlank c = true) →
      blanks.filter (!isBlank ·) = [] :=
    fun h => List.filter_eq_nil_iff.2 fun c hc => by simp [h c hc]
  conv_rhs => rw [heq, List.filter_append, List.filter_append, hnone hleft, hnone hright,
    List.nil_append, List.append_nil]

/-- **The code of a line is what is left of it exactly if its first mark is not in a literal.** -/
theorem codeOf_eq_iff : codeOf line = trim (realCode line) ↔ ¬ CutInLiteral line := by
  rw [codeOf_eq]
  rcases realCode_cases line with ⟨hcut, heq⟩ | ⟨hcut, rest, heq⟩
  · exact ⟨fun _ => hcut, fun _ => congrArg trim heq.symm⟩
  · refine ⟨fun h => ?_, fun h => absurd hcut h⟩
    -- the slash behind what is left is not blank
    have hkept := congrArg (List.filter (!isBlank ·)) h
    rw [filter_trim, filter_trim, heq, List.filter_append, List.self_eq_append_right] at hkept
    exact absurd hkept (by simp [show isBlank '/' = false by decide])

theorem trimStart_before_eq_iff :
    trimStart (before slashes line) = trimStart (realCode line) ↔ ¬ CutInLiteral line := by
  constructor
  · intro h
    rw [← codeOf_eq_iff, codeOf_eq]
    exact congrArg trimEnd h
  · intro hcut
    obtain ⟨-, heq⟩ := (realCode_cases line).resolve_right fun h => hcut h.1
    rw [heq]

/-! ## Rules on code -/

/-- The rules on the code of single lines. -/
inductive CodeRule where
  | javaCommand
  | kotlinCommand
  | goTls
  | goShell
  | scriptCommand
  | dynamicEval
  deriving Repr, DecidableEq

namespace CodeRule

variable {rule : CodeRule} {analyser : Analyser} {f : SourceFile} {k : Nat}

def info : CodeRule → RuleInfo
  | javaCommand => Catalogue.javaCommand
  | kotlinCommand => Catalogue.kotlinCommand
  | goTls => Catalogue.goTls
  | goShell => Catalogue.goShell
  | scriptCommand => Catalogue.scriptCommand
  | dynamicEval => Catalogue.dynamicEval

/-- The groups of checks that have the rule. -/
def analysers : CodeRule → List Analyser
  | javaCommand => [.java]
  | kotlinCommand => [.kotlin]
  | goTls | goShell => [.go]
  | scriptCommand => [.javaScript]
  | dynamicEval => [.java, .kotlin, .javaScript, .go, .anySource]

/-- What the rule reports. -/
def issues (f : SourceFile) : CodeRule → List Issue
  | javaCommand => codeLines f Catalogue.javaCommand
      "Review OS command execution (Runtime.exec/ProcessBuilder) for injection risks."
      fun code => runtimeExec.occurs code || Java.newProcess.occurs code
  | kotlinCommand => codeLines f Catalogue.kotlinCommand
      "Review OS command execution usage for command injection risks."
      fun code => runtimeExec.occurs code || Kotlin.processBuilder.occurs code
  | goTls => codeLines f Catalogue.goTls
      "Avoid InsecureSkipVerify=true in production TLS settings." Go.skipsVerification.occurs
  | goShell => codeLines f Catalogue.goShell
      "Review exec.Command(\"sh\", \"-c\", ...) usage for command injection risks."
      Go.shellCommand.occurs
  | scriptCommand => JavaScript.commandIssues f
  | dynamicEval => AnySource.dynamicEvals f

/-- **What the rule is about occurs in code** that stands at an index in a file. -/
def Occurs (f : SourceFile) (k : Nat) (code : List Char) : CodeRule → Prop
  | javaCommand => runtimeExec.FitsIn code ∨ Java.newProcess.FitsIn code
  | kotlinCommand => runtimeExec.FitsIn code ∨ Kotlin.processBuilder.FitsIn code
  | goTls => Go.skipsVerification.FitsIn code
  | goShell => Go.shellCommand.FitsIn code
  | scriptCommand => JavaScript.inlineExec.FitsIn code ∨
      (∃ name, JavaScript.FunctionBefore f.lines k name ∧
        JavaScript.UsedAtEdge JavaScript.CallBehind name code) ∨
      ∃ name, JavaScript.ModuleBefore f.lines k name ∧
        JavaScript.Used JavaScript.CommandBehind name code
  | dynamicEval => AnySource.evalCall.FitsIn code

/-- Code that the rule does not look at: bindings of names, what seems to be in a comment of more
lines, and languages without evaluation. -/
def PassesOver (f : SourceFile) (code : List Char) : CodeRule → Prop
  | javaCommand | kotlinCommand | goTls | goShell => False
  | scriptCommand => ∃ form : JavaScript.Form, form.pattern.FitsIn code
  | dynamicEval => String.ofList f.suffix ∉ AnySource.evalSuffixes ∨
      startsWith code "/*" = true ∨ startsWith code "*" = true

/-- A group of checks reports a line by the rule. -/
def Reported (rule : CodeRule) (analyser : Analyser) (f : SourceFile) (n : Nat) : Prop :=
  ∃ i ∈ analyser.check f, i.ruleId = rule.info.id ∧ i.line = n

/-! ### The reports of a rule -/

section Lines

variable {r : RuleInfo} {message : String} {t : List Char → Bool}

/-- A line is reported by its number exactly if it satisfies a test. -/
theorem exists_mem_testedLines_iff (hline : f.lines[k]? = some line) :
    (∃ i ∈ f.numbered.filterMap fun x =>
      if t x.1 then some (r.issue f.path x.2 1 message) else none, i.line = (k + 1 : Nat)) ↔
    t line = true := by
  simp only [List.mem_filterMap, Option.ite_none_right_eq_some, Option.some.injEq]
  constructor
  · rintro ⟨_, ⟨⟨line', n⟩, hmem, htest, rfl⟩, hk⟩
    obtain rfl : n = k + 1 := coord_inj.1 hk
    obtain ⟨-, hline'⟩ := List.mk_mem_zipIdx_iff_le_and_getElem?_sub.1 hmem
    obtain rfl : line' = line := Option.some.inj (hline'.symm.trans hline)
    exact htest
  · intro htest
    refine ⟨_, ⟨(line, k + 1), ?_, htest, rfl⟩, rfl⟩
    exact List.mk_mem_zipIdx_iff_le_and_getElem?_sub.2 ⟨Nat.le_add_left 1 k, hline⟩

theorem exists_mem_codeLines_iff (hline : f.lines[k]? = some line) (hempty : t [] = false) :
    (∃ i ∈ codeLines f r message t, i.line = (k + 1 : Nat)) ↔ t (codeOf line) = true := by
  have hnonempty : t (codeOf line) = true → (!(codeOf line).isEmpty) = true := by
    intro htest
    cases hcode : codeOf line with
    | nil => exact absurd (hempty.symm.trans (hcode ▸ htest)) Bool.false_ne_true
    | cons c rest => rfl
  have htested : (∃ i ∈ codeLines f r message t, i.line = (k + 1 : Nat)) ↔ _ :=
    exists_mem_testedLines_iff (t := fun line => !(codeOf line).isEmpty && t (codeOf line)) hline
  rw [htested, Bool.and_eq_true]
  exact and_iff_right_of_imp hnonempty

/-- A check for either of two patterns. -/
theorem exists_mem_eitherLines_iff {p q : Pattern} (hline : f.lines[k]? = some line)
    (hp : p.occurs [] = false) (hq : q.occurs [] = false) :
    (∃ i ∈ codeLines f r message fun code => p.occurs code || q.occurs code,
      i.line = (k + 1 : Nat)) ↔ p.FitsIn (codeOf line) ∨ q.FitsIn (codeOf line) := by
  have hempty : (p.occurs [] || q.occurs []) = false := Bool.or_eq_false_iff.2 ⟨hp, hq⟩
  rw [exists_mem_codeLines_iff (t := fun code => p.occurs code || q.occurs code) hline hempty,
    Bool.or_eq_true, occurs_iff, occurs_iff]

theorem exists_mem_dynamicEvals_iff (hline : f.lines[k]? = some line)
    (hslash : String.ofList f.suffix ∈ slashSuffixes) :
    (∃ i ∈ AnySource.dynamicEvals f, i.line = (k + 1 : Nat)) ↔
      dynamicEval.Occurs f k (codeOf line) ∧ ¬ dynamicEval.PassesOver f (codeOf line) := by
  have hempty : AnySource.evalCall.occurs [] = false := by decide +kernel
  have hevaluates : AnySource.evaluates f.suffix line = true ↔
      AnySource.evalCall.FitsIn (codeOf line) ∧
        ¬ (startsWith (codeOf line) "/*" = true ∨ startsWith (codeOf line) "*" = true) := by
    rw [AnySource.evaluates, trim_withoutComment hslash, ← occurs_iff]
    cases hcode : codeOf line with
    | nil => simp [hempty]
    | cons c rest => simp [and_comm]
  rw [AnySource.dynamicEvals]
  simp only [Occurs, PassesOver]
  by_cases heval : String.ofList f.suffix ∈ AnySource.evalSuffixes
  · rw [if_neg (by simp [heval]), or_iff_right (not_not.2 heval), ← hevaluates]
    exact exists_mem_testedLines_iff hline
  · simp [heval]

end Lines

theorem placed_issues (rule : CodeRule) (f : SourceFile) :
    Placed [rule.info] fun path => rule.issues (f.moved path) := by
  cases rule with
  | scriptCommand => exact placed_scriptCommands f (by decide)
  | dynamicEval => exact placed_dynamicEvals f (by decide)
  | javaCommand | kotlinCommand | goTls | goShell =>
    simp only [issues]
    exact placed_codeLines f (List.mem_singleton_self _) _ _

theorem filter_issues (rule : CodeRule) (f : SourceFile) :
    (rule.issues f).filter (·.ruleId == rule.info.id) = rule.issues f := by
  obtain ⟨found, hfound⟩ := placed_issues rule f
  refine List.filter_eq_self.2 fun i hi => beq_iff_eq.2 ?_
  rw [show rule.issues f = found.map (·.issue f.path) from hfound f.path] at hi
  obtain ⟨x, -, rfl⟩ := List.mem_map.1 hi
  exact congrArg RuleInfo.id (List.mem_singleton.1 x.mem_rules)

/-- **What a group of checks reports by a rule** is what the rule reports. -/
theorem filter_check_code (h : analyser ∈ rule.analysers) :
    (analyser.check f).filter (·.ruleId == rule.info.id) = rule.issues f := by
  rw [← filter_issues]
  cases rule with
  | javaCommand =>
    obtain rfl := List.mem_singleton.1 h
    exact Java.parts.filter_eq Catalogue.javaCommand rfl f
  | kotlinCommand =>
    obtain rfl := List.mem_singleton.1 h
    exact Kotlin.parts.filter_eq Catalogue.kotlinCommand rfl f
  | goTls =>
    obtain rfl := List.mem_singleton.1 h
    exact Go.parts.filter_eq Catalogue.goTls rfl f
  | goShell =>
    obtain rfl := List.mem_singleton.1 h
    exact Go.parts.filter_eq Catalogue.goShell rfl f
  | scriptCommand =>
    obtain rfl := List.mem_singleton.1 h
    exact (JavaScript.commandReports_eq f).trans (filter_issues scriptCommand f).symm
  | dynamicEval =>
    -- The checks of a language leave this to those of any source.
    refine Eq.trans ?_ (AnySource.parts.filter_eq Catalogue.dynamicEval rfl f)
    cases analyser with
    | python => exact absurd h (by decide)
    | java => exact Java.parts.filter_eq Catalogue.dynamicEval rfl f
    | kotlin => exact Kotlin.parts.filter_eq Catalogue.dynamicEval rfl f
    | javaScript => exact JavaScript.parts.filter_eq Catalogue.dynamicEval rfl f
    | go => exact Go.parts.filter_eq Catalogue.dynamicEval rfl f
    | anySource => rfl

/-- **A line is reported by a rule exactly if what the rule is about occurs in what is left of the
line**, unless the rule does not look at it. -/
theorem reported_code_iff (h : analyser ∈ rule.analysers) (hline : f.lines[k]? = some line)
    (hslash : rule = dynamicEval → String.ofList f.suffix ∈ slashSuffixes) :
    rule.Reported analyser f (k + 1) ↔
      rule.Occurs f k (codeOf line) ∧ ¬ rule.PassesOver f (codeOf line) := by
  have hreported : rule.Reported analyser f (k + 1) ↔
      ∃ i ∈ rule.issues f, i.line = (k + 1 : Nat) := by
    simp only [Reported, ← filter_check_code h, List.mem_filter, beq_iff_eq, and_assoc]
  have hruntime : runtimeExec.occurs [] = false := by decide +kernel
  rw [hreported]
  cases rule with
  | javaCommand =>
    have hnew : Java.newProcess.occurs [] = false := by decide +kernel
    exact (exists_mem_eitherLines_iff hline hruntime hnew).trans (and_iff_left not_false).symm
  | kotlinCommand =>
    have hbuilder : Kotlin.processBuilder.occurs [] = false := by decide +kernel
    exact (exists_mem_eitherLines_iff hline hruntime hbuilder).trans (and_iff_left not_false).symm
  | goTls =>
    have hempty : Go.skipsVerification.occurs [] = false := by decide +kernel
    refine (exists_mem_codeLines_iff hline hempty).trans ?_
    exact occurs_iff.trans (and_iff_left not_false).symm
  | goShell =>
    have hempty : Go.shellCommand.occurs [] = false := by decide +kernel
    refine (exists_mem_codeLines_iff hline hempty).trans ?_
    exact occurs_iff.trans (and_iff_left not_false).symm
  | scriptCommand =>
    obtain rfl := List.mem_singleton.1 h
    have hsame : (∃ i ∈ scriptCommand.issues f, i.line = (k + 1 : Nat)) ↔
        JavaScript.Reported f (k + 1) := by
      rw [JavaScript.Reported, JavaScript.commandReports_eq]
      rfl
    rw [hsame, JavaScript.reported_iff hline, and_comm, ← not_exists]
    rfl
  | dynamicEval => exact exists_mem_dynamicEvals_iff hline (hslash rfl)

/-- **Code before a comment is checked unless the first two slashes of its line stand in a
literal.** What is left of a line without its comment is its code exactly then. A rule reports a
line exactly if what it is about occurs before the first two slashes, and the rule looks at such
code; so it reports the line by its code if they do not stand in a literal. -/
theorem code_before_comments_checked (rule : CodeRule) (analyser : Analyser)
    (h : analyser ∈ rule.analysers) (f : SourceFile) (k : Nat) (line : List Char)
    (hline : f.lines[k]? = some line)
    (hslash : rule = dynamicEval → String.ofList f.suffix ∈ slashSuffixes) :
    (trimStart (withoutSlashComment line) = trimStart (realCode line) ↔ ¬ CutInLiteral line) ∧
    (∀ suffix, String.ofList suffix ∈ slashSuffixes →
      (withoutComment suffix line = trimStart (realCode line) ↔ ¬ CutInLiteral line)) ∧
    (rule.Reported analyser f (k + 1) ↔
      rule.Occurs f k (trim (before slashes line)) ∧
        ¬ rule.PassesOver f (trim (before slashes line))) ∧
    (¬ CutInLiteral line → (rule.Reported analyser f (k + 1) ↔
      rule.Occurs f k (trim (realCode line)) ∧ ¬ rule.PassesOver f (trim (realCode line)))) := by
  have hreported := reported_code_iff h hline hslash
  refine ⟨?_, fun suffix hsuffix => ?_, codeOf_eq line ▸ hreported, fun hcut => ?_⟩
  · rw [trimStart_withoutSlashComment, trimStart_before_eq_iff]
  · rw [withoutComment_eq hsuffix, trimStart_before_eq_iff]
  · rwa [← codeOf_eq_iff.2 hcut]

/-- A call behind a literal with a quote in it, and a comment with a literal. -/
def quotedQuote : List Char := "show(\"a\\\"b\"); eval(input) // see \"//\"".toList

/-- The call is reported. -/
theorem quotedQuote_reported : ¬ CutInLiteral quotedQuote ∧
    realCode quotedQuote = "show(\"a\\\"b\"); eval(input) ".toList ∧
    dynamicEval.Reported .javaScript (.of ⟨.relative, ["a.js"]⟩ quotedQuote) 1 := by
  have hcut : ¬ CutInLiteral quotedQuote := by decide +kernel
  have hoccurs : AnySource.evalCall.FitsIn (trim (realCode quotedQuote)) :=
    occurs_iff.1 (by decide +kernel)
  have hlooks : ¬ dynamicEval.PassesOver (.of ⟨.relative, ["a.js"]⟩ quotedQuote)
      (trim (realCode quotedQuote)) := by
    simp only [PassesOver]
    decide +kernel
  obtain ⟨-, -, -, hreported⟩ := code_before_comments_checked dynamicEval .javaScript (by decide)
    (.of ⟨.relative, ["a.js"]⟩ quotedQuote) 0 quotedQuote (by decide +kernel)
    fun _ => by decide +kernel
  exact ⟨hcut, by decide +kernel, (hreported hcut).2 ⟨hoccurs, hlooks⟩⟩

/-- A command behind a literal with two slashes. -/
def slashesInLiteral : List Char :=
  "String u = \"//h\"; Runtime.getRuntime().exec(u);".toList

/-- **A command behind a literal with two slashes is not reported**, though no comment is before
it. -/
theorem slashesInLiteral_not_reported :
    realCode slashesInLiteral = slashesInLiteral ∧
    javaCommand.Occurs (.of ⟨.relative, ["A.java"]⟩ slashesInLiteral) 0
      (trim (realCode slashesInLiteral)) ∧
    withoutSlashComment slashesInLiteral = "String u = \"".toList ∧
    ¬ javaCommand.Reported .java (.of ⟨.relative, ["A.java"]⟩ slashesInLiteral) 1 := by
  refine ⟨by decide +kernel, .inl (occurs_iff.1 (by decide +kernel)), by decide +kernel, ?_⟩
  have hline : (SourceFile.of ⟨.relative, ["A.java"]⟩ slashesInLiteral).lines[0]? =
      some slashesInLiteral := by decide +kernel
  have hjava : Analyser.java ∈ javaCommand.analysers := by decide
  rw [reported_code_iff hjava hline nofun]
  simp only [Occurs, PassesOver, ← occurs_iff]
  decide +kernel

end CodeRule

end CodeAudit.Checks
