import CodeAudit.Proofs.Checks.Bindings
import CodeAudit.Proofs.Checks.Blocks
import CodeAudit.Proofs.Checks.Nodes

/-!
# Names followed to commands

What a line of a script runs is said without the scan, by the use of a name with a call behind it
(`Used`). A line is reported exactly if it has none of the forms of a binding and calls a command
function, on the required module or through a name that an earlier line binds (`reported_iff`).

Two things are missed. A line of one of the forms is not reported, whatever it runs
(`inline_command_reported_iff`); and a name is looked for at the edge of a word, where a name that
begins with no word character does not stand (`commands_followed_through_names`).
-/

namespace CodeAudit.Checks.JavaScript

open Pattern Text

variable {code name line : List Char} {b : Bound} {lines more : List (List Char)} {k n : Nat}

/-! ## The scan -/

theorem commandLines_cons : commandLines b n (line :: lines) =
    (if binding? (codeOf line) = none ∧ runsCommand b (codeOf line) = true then [n] else []) ++
      commandLines (b.step line) (n + 1) lines := by
  rw [commandLines, Bound.step]
  cases binding? (codeOf line) with
  | none => by_cases h : runsCommand b (codeOf line) = true <;> simp [h]
  | some binding => simp

/-- What is found in more lines is found behind what is found already. -/
theorem commandLines_append : commandLines b n (lines ++ more) =
    commandLines b n lines ++ commandLines (b.after lines) (n + lines.length) more := by
  induction lines generalizing b n with
  | nil => rfl
  | cons line lines ih =>
    rw [List.cons_append, commandLines_cons, commandLines_cons, ih, List.append_assoc,
      List.length_cons, Nat.add_right_comm, Nat.add_assoc n]
    rfl

theorem le_of_mem_commandLines {m : Nat} (h : m ∈ commandLines b n lines) : n ≤ m := by
  induction lines generalizing b n with
  | nil => cases h
  | cons line lines ih =>
    rw [commandLines_cons, List.mem_append] at h
    rcases h with h | h
    · rw [List.mem_ite_nil_right, List.mem_singleton] at h
      exact Nat.le_of_eq h.2.symm
    · exact Nat.le_of_succ_le (ih h)

theorem pairwise_commandLines : (commandLines b n lines).Pairwise (· < ·) := by
  induction lines generalizing b n with
  | nil => exact .nil
  | cons line lines ih =>
    rw [commandLines_cons, List.pairwise_append]
    refine ⟨?_, ih, fun m hm m' hm' => ?_⟩
    · split
      · exact List.pairwise_singleton _ _
      · exact .nil
    · rw [List.mem_ite_nil_right, List.mem_singleton] at hm
      have hle := le_of_mem_commandLines hm'
      omega

/-- **A line is found exactly if it binds nothing and runs a command** with the names that the lines
before it bind. -/
theorem mem_commandLines (hline : lines[k]? = some line) : n + k ∈ commandLines b n lines ↔
    binding? (codeOf line) = none ∧
      runsCommand (b.after (lines.take k)) (codeOf line) = true := by
  induction lines generalizing b n k with
  | nil => cases hline
  | cons first lines ih =>
    rw [commandLines_cons, List.mem_append, List.mem_ite_nil_right, List.mem_singleton]
    cases k with
    | zero =>
      obtain rfl := Option.some.inj hline
      -- the lines behind it have greater numbers
      have hnot : n + 0 ∉ commandLines (b.step first) (n + 1) lines :=
        fun h => Nat.not_succ_le_self n (le_of_mem_commandLines h)
      rw [or_iff_left hnot, and_iff_left (Nat.add_zero n)]
      rfl
    | succ k =>
      have hnot : n + (k + 1) ≠ n := by omega
      have hnext : n + (k + 1) = n + 1 + k := by omega
      rw [or_iff_right fun h => hnot h.2, hnext]
      exact ih hline

/-! ## Calls -/

/-- Whether a text ends with a word character. -/
def endsWord (text : List Char) : Bool := text.getLast?.any isWord

/-- What stands behind the name of a function that is called. -/
def CallBehind (rest : List Char) : Prop :=
  ∃ gap arguments, rest = gap ++ '(' :: arguments ∧ ∀ c ∈ gap, isBlank c = true

/-- What stands behind the name of the module where one of its command functions is called. -/
def CommandBehind (rest : List Char) : Prop :=
  ∃ gap gap' function rest', rest = gap ++ '.' :: (gap' ++ (function ++ rest')) ∧
    (∀ c ∈ gap, isBlank c = true) ∧ (∀ c ∈ gap', isBlank c = true) ∧
    function ∈ commandFunctions ∧ CallBehind rest'

/-- **A name stands in code with something behind it**, and no longer word ends with it. -/
def Used (Behind : List Char → Prop) (name code : List Char) : Prop :=
  ∃ left rest, code = left ++ (name ++ rest) ∧ endsWord left = false ∧ Behind rest

/-- A name stands in code with something behind it, where a word begins or ends. -/
def UsedAtEdge (Behind : List Char → Prop) (name code : List Char) : Prop :=
  ∃ left rest, code = left ++ (name ++ rest) ∧ endsWord left ≠ startsWord name ∧ Behind rest

section Calls

variable {Behind : List Char → Prop} {left rest : List Char} {a : Pattern}

theorem usedAtEdge_iff (h : startsWord name = true) :
    UsedAtEdge Behind name code ↔ Used Behind name code := by
  simp only [UsedAtEdge, Used, h, Bool.not_eq_true]

theorem startsWord_append (h : name ≠ []) : startsWord (name ++ rest) = startsWord name := by
  rw [startsWord, List.head?_append_of_ne_nil _ h]
  rfl

theorem occurs_exactly_append (hname : name ≠ [])
    (h : ∀ {left rest}, a.FitsBehind left rest ↔ Behind rest) :
    (exactly name ++ a).occurs code = true ↔ UsedAtEdge Behind name code := by
  rw [occurs_iff, fitsIn_iff]
  simp only [exactly, fitsBehind_assoc, fitsBehind_wordEdge_append, fitsBehind_text_append, h,
    String.toList_ofList]
  constructor
  · rintro ⟨left, _, rfl, hedge, rest, rfl, hbehind⟩
    exact ⟨left, rest, rfl, startsWord_append hname ▸ hedge, hbehind⟩
  · rintro ⟨left, rest, rfl, hedge, hbehind⟩
    refine ⟨left, _, rfl, ?_, rest, rfl, hbehind⟩
    rwa [← startsWord_append hname] at hedge

theorem fitsBehind_call : (blanks ++ char '(').FitsBehind left rest ↔ CallBehind rest := by
  simp only [fitsBehind_blanks_append, fitsBehind_char]
  constructor
  · rintro ⟨gap, _, rfl, hgap, arguments, rfl⟩
    exact ⟨gap, arguments, rfl, hgap⟩
  · rintro ⟨gap, arguments, rfl, hgap⟩
    exact ⟨gap, _, rfl, hgap, arguments, rfl⟩

theorem fitsBehind_execCall : execCall.FitsBehind left rest ↔ CommandBehind rest := by
  have hfunction : ∀ function, function ∈ commandFunctions ↔
      ∃ ending, function = "exec".toList ++ ending ∧ (ending = "Sync".toList ∨ ending = []) := by
    intro function
    rw [mem_commandFunctions]
    constructor
    · rintro (rfl | rfl)
      · exact ⟨[], rfl, .inr rfl⟩
      · exact ⟨"Sync".toList, rfl, .inl rfl⟩
    · rintro ⟨_, rfl, rfl | rfl⟩
      · exact .inr rfl
      · exact .inl rfl
  simp only [execCall, fitsBehind_assoc, fitsBehind_blanks_append, fitsBehind_char_append,
    fitsBehind_text_append, fitsBehind_maybe_text_append, fitsBehind_char]
  constructor
  · rintro ⟨gap, _, rfl, hgap, _, rfl, gap', _, rfl, hgap', _, rfl, ending, _, rfl, hending,
      gap'', _, rfl, hgap'', arguments, rfl⟩
    exact ⟨gap, gap', "exec".toList ++ ending, _, by rw [List.append_assoc], hgap, hgap',
      (hfunction _).2 ⟨ending, rfl, hending⟩, gap'', arguments, rfl, hgap''⟩
  · rintro ⟨gap, gap', function, _, rfl, hgap, hgap', hmem, gap'', arguments, rfl, hgap''⟩
    obtain ⟨ending, rfl, hending⟩ := (hfunction _).1 hmem
    exact ⟨gap, _, rfl, hgap, _, rfl, gap', _, rfl, hgap', _, List.append_assoc _ _ _, ending, _,
      rfl, hending, gap'', _, rfl, hgap'', arguments, rfl⟩

end Calls

/-- **Code runs a command exactly if it calls one on the required module itself, or through a name
that stands for a command function or for the module.** -/
theorem runsCommand_after_iff :
    runsCommand (Bound.start.after (lines.take k)) code = true ↔ inlineExec.FitsIn code ∨
      (∃ name, FunctionBefore lines k name ∧ UsedAtEdge CallBehind name code) ∨
      ∃ name, ModuleBefore lines k name ∧ Used CommandBehind name code := by
  rw [runsCommand, Bool.or_eq_true, Bool.or_eq_true, List.any_eq_true, List.any_eq_true, occurs_iff,
    or_assoc]
  refine or_congr_right (or_congr ?_ ?_)
  · refine exists_congr fun name => ?_
    rw [mem_functions_after]
    refine and_congr_right fun hname => ?_
    rw [occurs_assoc, occurs_exactly_append hname.ne_nil fitsBehind_call]
  · refine exists_congr fun name => ?_
    rw [mem_modules_after]
    refine and_congr_right fun hname => ?_
    have hne : name ≠ [] := by
      rintro rfl
      exact absurd hname.startsWord (by decide)
    rw [occurs_exactly_append hne fitsBehind_execCall, usedAtEdge_iff hname.startsWord]

/-! ## Reports -/

variable {f : SourceFile}

/-- What is reported by the rule on commands. -/
def commandReports (f : SourceFile) : List Issue :=
  (check f).filter (·.ruleId == Catalogue.scriptCommand.id)

/-- A line is reported by the rule on commands. -/
def Reported (f : SourceFile) (n : Nat) : Prop := ∃ i ∈ commandReports f, i.line = n

/-- The report of a line. -/
def lineReport (path : String) (n : Nat) : Issue := Catalogue.scriptCommand.issue path n 1
  "Review child_process exec/execSync usage for command injection risks."

theorem commandReports_eq (f : SourceFile) :
    commandReports f = (commandLines .start 1 f.lines).map (lineReport f.path) := by
  have hself : (commandIssues f).filter (·.ruleId == Catalogue.scriptCommand.id) =
      commandIssues f := by
    refine List.filter_eq_self.2 fun i hi => ?_
    obtain ⟨n, -, rfl⟩ := List.mem_map.1 hi
    exact beq_self_eq_true _
  refine Eq.trans ?_ hself
  exact parts.filter_eq Catalogue.scriptCommand rfl f

theorem reported_iff_mem : Reported f n ↔ n ∈ commandLines .start 1 f.lines := by
  rw [Reported, commandReports_eq]
  constructor
  · rintro ⟨i, hi, hline⟩
    obtain ⟨m, hm, rfl⟩ := List.mem_map.1 hi
    exact coord_inj.1 hline ▸ hm
  · exact fun hn => ⟨_, List.mem_map_of_mem hn, rfl⟩

/-- **A line is reported exactly if it has none of the forms and runs a command.** -/
theorem reported_iff (hline : f.lines[k]? = some line) : Reported f (k + 1) ↔
    (∀ form : Form, ¬ form.pattern.FitsIn (codeOf line)) ∧ (inlineExec.FitsIn (codeOf line) ∨
      (∃ name, FunctionBefore f.lines k name ∧ UsedAtEdge CallBehind name (codeOf line)) ∨
      ∃ name, ModuleBefore f.lines k name ∧ Used CommandBehind name (codeOf line)) := by
  rw [reported_iff_mem, Nat.add_comm, mem_commandLines hline, binding?_eq_none_iff,
    runsCommand_after_iff]

/-- **A command that is called on the required module itself is reported exactly if its line has
none of the forms of a binding.** -/
theorem inline_command_reported_iff (f : SourceFile) (k : Nat) (line : List Char)
    (hline : f.lines[k]? = some line) (hinline : inlineExec.FitsIn (codeOf line)) :
    Reported f (k + 1) ↔ ∀ form : Form, ¬ form.pattern.FitsIn (codeOf line) := by
  rw [reported_iff hline]
  exact and_iff_left (.inl hinline)

/-- A call on the required module as an argument. -/
def inlineArgument : List Char := "show(require('child_process').exec(command))".toList

theorem inlineArgument_reported : inlineExec.FitsIn (codeOf inlineArgument) ∧
    Reported (.of ⟨.relative, ["a.js"]⟩ inlineArgument) 1 := by
  have hinline : inlineExec.FitsIn (codeOf inlineArgument) := occurs_iff.1 (by decide +kernel)
  have hforms : ∀ form : Form, ¬ form.pattern.FitsIn (codeOf inlineArgument) :=
    isNone_binding?_iff.1 (by decide +kernel)
  exact ⟨hinline,
    (inline_command_reported_iff _ 0 inlineArgument (by decide +kernel) hinline).2 hforms⟩

/-- The result of a call on the required module, with a name. -/
def inlineResult : List Char := "const out = require('child_process').execSync(cmd)".toList

/-- **A call on the required module is not reported if its result is given a name.** -/
theorem inlineResult_not_reported : inlineExec.FitsIn (codeOf inlineResult) ∧
    ¬ Reported (.of ⟨.relative, ["a.js"]⟩ inlineResult) 1 := by
  refine ⟨occurs_iff.1 (by decide +kernel), ?_⟩
  rw [reported_iff_mem]
  decide +kernel

/-! ## Whole files -/

/-- No line has two reports. -/
theorem pairwise_commandReports (f : SourceFile) :
    (commandReports f).Pairwise fun i j => i.line ≠ j.line := by
  rw [commandReports_eq, List.pairwise_map]
  refine pairwise_commandLines.imp fun hlt heq => ?_
  exact Nat.ne_of_lt hlt (coord_inj.1 heq)

/-- More lines only add reports of their own. -/
theorem exists_commandReports_append (path : Path) {text more : List Char}
    (h : GoesOnBelow text more) : ∃ later,
      commandReports (.of path (text ++ more)) = commandReports (.of path text) ++ later ∧
      ∀ i ∈ later, ∃ n : Nat, (splitLines text).length < n ∧ i.line = n := by
  obtain ⟨below, hlines⟩ := splitLines_isPrefix h
  have hreports := commandReports_eq (.of path (text ++ more))
  change _ = (commandLines .start 1 (splitLines (text ++ more))).map _ at hreports
  rw [← hlines, commandLines_append, List.map_append] at hreports
  refine ⟨_, hreports.trans (congrArg (· ++ _) (commandReports_eq (.of path text)).symm), ?_⟩
  intro i hi
  obtain ⟨n, hn, rfl⟩ := List.mem_map.1 hi
  have hle := le_of_mem_commandLines hn
  exact ⟨n, by omega, rfl⟩

/-- **A line calls a command function through a name** that an earlier line binds. -/
def CallsThroughName (lines : List (List Char)) (k : Nat) (code : List Char) : Prop :=
  (∃ name, FunctionBefore lines k name ∧ Used CallBehind name code) ∨
    ∃ name, ModuleBefore lines k name ∧ Used CommandBehind name code

/-- **Commands are followed through names, as far as the names begin with a word character.** A line
that has none of the forms, and no call on the required module itself, is reported exactly if it
calls a command function of the module by a name that stands for the module, or by a name of the
function, where a word begins or ends. Where all names of functions begin with a word character,
that is any call through a name. A line has one report at most, and more lines leave the reports of
those before as they are. -/
theorem commands_followed_through_names (path : Path) (text : List Char) :
    (∀ k line, (splitLines text)[k]? = some line →
      (∀ form : Form, ¬ form.pattern.FitsIn (codeOf line)) →
      ¬ inlineExec.FitsIn (codeOf line) →
      (Reported (.of path text) (k + 1) ↔
        (∃ name, FunctionBefore (splitLines text) k name ∧
          UsedAtEdge CallBehind name (codeOf line)) ∨
        ∃ name, ModuleBefore (splitLines text) k name ∧ Used CommandBehind name (codeOf line)) ∧
      ((∀ name, FunctionBefore (splitLines text) k name → startsWord name = true) →
        (Reported (.of path text) (k + 1) ↔
          CallsThroughName (splitLines text) k (codeOf line)))) ∧
    (commandReports (.of path text)).Pairwise (fun i j => i.line ≠ j.line) ∧
    ∀ more, GoesOnBelow text more → ∃ later,
      commandReports (.of path (text ++ more)) = commandReports (.of path text) ++ later ∧
      ∀ i ∈ later, ∃ n : Nat, (splitLines text).length < n ∧ i.line = n := by
  refine ⟨fun k line hline hforms hinline => ?_, pairwise_commandReports _,
    fun more => exists_commandReports_append path⟩
  have hreported : Reported (.of path text) (k + 1) ↔ _ := reported_iff hline
  rw [and_iff_right hforms, or_iff_right hinline] at hreported
  refine ⟨hreported, fun hword => hreported.trans (or_congr_left (exists_congr fun name => ?_))⟩
  exact and_congr_right fun hname => usedAtEdge_iff (hword name hname)

/-- A command function that is called by a name of its own. -/
def renamedCall : List Char := "const { exec: run } = require('child_process')\nrun(cmd)\n".toList

/-- The call is reported, also if the file goes on. -/
theorem renamedCall_reported :
    (∀ name, FunctionBefore (splitLines renamedCall) 1 name → startsWord name = true) ∧
    CallsThroughName (splitLines renamedCall) 1 (codeOf "run(cmd)".toList) ∧
    Reported (.of ⟨.relative, ["a.js"]⟩ renamedCall) 2 ∧
    GoesOnBelow renamedCall "run(other)\n".toList ∧
    ∃ later, commandReports (.of ⟨.relative, ["a.js"]⟩ (renamedCall ++ "run(other)\n".toList)) =
      commandReports (.of ⟨.relative, ["a.js"]⟩ renamedCall) ++ later := by
  have hline : (splitLines renamedCall)[1]? = some "run(cmd)".toList := by decide +kernel
  have hforms : ∀ form : Form, ¬ form.pattern.FitsIn (codeOf "run(cmd)".toList) :=
    isNone_binding?_iff.1 (by decide +kernel)
  have hinline : ¬ inlineExec.FitsIn (codeOf "run(cmd)".toList) := by
    rw [← occurs_iff]
    decide +kernel
  have hword : ∀ name, FunctionBefore (splitLines renamedCall) 1 name → startsWord name = true := by
    simp only [← mem_functions_after]
    decide +kernel
  have hcalls : CallsThroughName (splitLines renamedCall) 1 (codeOf "run(cmd)".toList) := by
    refine .inl ⟨"run".toList, mem_functions_after.1 (by decide +kernel), [], "(cmd)".toList, ?_⟩
    exact ⟨by decide +kernel, rfl, [], "cmd)".toList, rfl, nofun⟩
  have hbelow : GoesOnBelow renamedCall "run(other)\n".toList := .inl (by decide +kernel)
  obtain ⟨hlines, -, hmore⟩ := commands_followed_through_names ⟨.relative, ["a.js"]⟩ renamedCall
  obtain ⟨later, heq, -⟩ := hmore _ hbelow
  exact ⟨hword, hcalls, ((hlines 1 _ hline hforms hinline).2 hword).2 hcalls, hbelow, later, heq⟩

/-- A command function that is called by a name which begins with no word character. -/
def dollarCall : List Char := "const { exec: $run } = require('child_process')\n$run(cmd)\n".toList

/-- **A call by a name that begins with no word character is not reported.** -/
theorem dollarCall_not_reported :
    (splitLines dollarCall)[1]? = some "$run(cmd)".toList ∧
    (∀ form : Form, ¬ form.pattern.FitsIn (codeOf "$run(cmd)".toList)) ∧
    ¬ inlineExec.FitsIn (codeOf "$run(cmd)".toList) ∧
    CallsThroughName (splitLines dollarCall) 1 (codeOf "$run(cmd)".toList) ∧
    commandReports (.of ⟨.relative, ["a.js"]⟩ dollarCall) = [] := by
  have hname : FunctionBefore (splitLines dollarCall) 1 "$run".toList := by
    rw [← mem_functions_after]
    decide +kernel
  refine ⟨by decide +kernel, isNone_binding?_iff.1 (by decide +kernel), ?_,
    .inl ⟨_, hname, ?_⟩, ?_⟩
  · rw [← occurs_iff]
    decide +kernel
  · exact ⟨[], "(cmd)".toList, by decide +kernel, rfl, [], "cmd)".toList, rfl, nofun⟩
  · rw [commandReports_eq]
    decide +kernel

end CodeAudit.Checks.JavaScript
