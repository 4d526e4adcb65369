import CodeAudit.Program
import CodeAudit.Proofs.Scan.BuiltIn
import CodeAudit.Proofs.Scan.Dedupe
import CodeAudit.Proofs.Syntax.Signs
import CodeAudit.Proofs.Syntax.Ways

/-!
# Scans on a bounded stack

Whatever bytes are in a file, a scan is stopped only by what the stack has no room for: folders that
lie too deep, and Python source that is too deep for the parser or whose syntax tree has too many
levels (`returns_iff_stack_has_room`). Source that does not parse is reported like anything else. A
scan that is not stopped is the scan on an unbounded stack (`runWithin_eq_run`), and so is the whole
run of the program (`Program.runScanWithin_eq_runScan`).
-/

namespace CodeAudit

namespace Checks

/-- The stack has room for a source that the parser gets through, if it has room for the levels of
its tree. -/
theorem Python.overflow?_eq_none_iff {stack : Stack} {text : List Char} :
    Python.overflow? stack text = none ↔ stack.source? text = none ∧
      ∀ tree, Syntax.parse text = .ok tree → tree.reach ≤ stack.levels := by
  unfold Python.overflow? Python.buildable
  cases stack.source? text with
  | some complaint => simp
  | none =>
    cases Syntax.parse text with
    | error fault => simp
    | ok tree =>
      have hheight := tree.height_le_reach
      simp only [Except.ok.injEq, forall_eq', true_and]
      split
      next hbuild =>
        -- what cannot be built cannot be measured either
        exact ⟨fun h => absurd h (by simp), fun h => by omega⟩
      next =>
        split
        next hhigh => exact ⟨fun h => absurd h (by simp), fun h => absurd hhigh (Nat.not_lt.2 h)⟩
        next hlow => exact ⟨fun _ => Nat.not_lt.1 hlow, fun _ => rfl⟩

/-- The checks for Python are those of one ending. -/
theorem Analyser.ofSuffix_eq_python_iff {suffix : List Char} :
    Analyser.ofSuffix suffix = .python ↔ suffix = ".py".toList := by
  unfold Analyser.ofSuffix
  split
  next h => simp [h]
  next h =>
    refine ⟨fun heq => absurd heq ?_, fun heq => absurd heq h⟩
    repeat' split
    all_goals simp

end Checks

namespace Scan

/-! ## Files that are too deep -/

/-- **A file that the stack has no room for**: Python source on which the parser gives up, or whose
syntax tree has more levels. -/
structure Target.TooDeep (stack : Stack) (t : Target) : Prop where
  readable : t.file.readable = true
  python : Text.lower t.path.suffix = ".py".toList
  deep : stack.source? (textOf t.file.bytes) ≠ none ∨
    ∃ tree, Syntax.parse (textOf t.file.bytes) = .ok tree ∧ stack.levels < tree.reach

variable {stack : Stack} {t : Target} {found : List Target}

/-- The files that overflow the stack are those that are too deep. -/
theorem Target.overflow?_eq_none_iff : t.overflow? stack = none ↔ ¬ t.TooDeep stack := by
  unfold Target.overflow? Checks.Analyser.overflow?
  cases hread : t.file.readable with
  | false =>
    refine ⟨fun _ h => ?_, fun _ => rfl⟩
    exact absurd (hread.symm.trans h.readable) (by decide)
  | true =>
    have hsuffix : (SourceFile.of t.path (textOf t.file.bytes)).suffix =
      Text.lower t.path.suffix := rfl
    have htext : (SourceFile.of t.path (textOf t.file.bytes)).text = textOf t.file.bytes := rfl
    simp only [Bool.not_true, Bool.false_eq_true, if_false, hsuffix, htext,
      Checks.Analyser.ofSuffix_eq_python_iff]
    split
    next hpython =>
      rw [Checks.Python.overflow?_eq_none_iff]
      constructor
      · rintro ⟨hparser, hroom⟩ ⟨-, -, hsource | ⟨tree, htree, hhigh⟩⟩
        · exact hsource hparser
        · exact absurd (hroom tree htree) (Nat.not_le.2 hhigh)
      · intro hnot
        refine ⟨?_, fun tree htree => Nat.not_lt.1 fun hhigh => ?_⟩
        · exact Classical.not_not.1 fun hsource => hnot ⟨hread, hpython, .inl hsource⟩
        · exact hnot ⟨hread, hpython, .inr ⟨tree, htree, hhigh⟩⟩
    next hother => exact ⟨fun _ h => hother h.python, fun _ => rfl⟩

/-- The stack is large enough for files none of which is too deep. -/
theorem firstOverflow?_eq_none_iff :
    firstOverflow? stack found = none ↔ ∀ t ∈ found, ¬ t.TooDeep stack := by
  have hone : ∀ x : Target × Nat,
      ((x.1.overflow? stack).map fun o => (x.2, o)) = none ↔ ¬ x.1.TooDeep stack := by
    intro x
    rw [Option.map_eq_none_iff, Target.overflow?_eq_none_iff]
  unfold firstOverflow?
  rw [List.findSome?_eq_none_iff]
  constructor
  · intro h t ht
    obtain ⟨n, hn⟩ := List.getElem?_of_mem ht
    have hmem : (t, n) ∈ found.zipIdx := List.mem_zipIdx_iff_getElem?.2 hn
    exact (hone (t, n)).1 (h _ hmem)
  · rintro h ⟨t, n⟩ hmem
    have ht : t ∈ found := List.mem_of_getElem? (List.mem_zipIdx_iff_getElem?.1 hmem)
    exact (hone (t, n)).2 (h t ht)

/-! ## Scans -/

variable {disk : Disk} {p : Plan} {tree : FileTree} {machine : External.Machine}
  {coverage : Option Coverage} {r : ScanResult}

/-- **Without folders and files that are too deep a scan needs no larger stack.** -/
theorem runWithin_eq_run (hroot : disk.get? (disk.absolute p.root) = some tree)
    (hfolders : p.choice.depth (disk.absolute p.root) tree ≤ machine.stack.folders)
    (hroom : ∀ t ∈ targets p.choice (disk.absolute p.root) tree, ¬ t.TooDeep machine.stack) :
    runWithin disk machine p coverage = run disk machine p coverage := by
  unfold runWithin
  cases hengine : Engine.ofName? p.engine with
  | none => simp only [hroot]
  | some engine =>
    simp only [hroot, if_neg (Nat.not_lt.2 hfolders), firstOverflow?_eq_none_iff.2 hroom, ite_self]

/-- What comes of files in folders of some depth on the stack that there is: the fault that the
folders or the first of the files are too deep, or the issues of all. -/
def resultOf (stack : Stack) (depth : Nat) (p : Plan) (found : List Target)
    (coverage : Option Coverage) : Except Fault ScanResult :=
  if stack.folders < depth then .error (.overflow .walking)
  else match firstOverflow? stack found with
    | some (_, o) => .error (.overflow o)
    | none => .ok ⟨dedupe (found.flatMap (targetIssues p)), found.length, coverage⟩

/-- **The result of a scan with the built-in checks**, on the stack that there is. -/
theorem result_runWithin (hroot : disk.get? (disk.absolute p.root) = some tree)
    (hengine : Engine.ofName? p.engine = some .builtIn) :
    (runWithin disk machine p coverage).result =
      resultOf machine.stack (p.choice.depth (disk.absolute p.root) tree) p
        (targets p.choice (disk.absolute p.root) tree) coverage := by
  have hchecks : Engine.builtIn.runsChecks = true := rfl
  have hrun := run_builtIn hroot hengine machine coverage
  unfold runWithin resultOf
  simp only [hroot, hengine, hchecks, if_true]
  split
  · rfl
  · cases firstOverflow? machine.stack (targets p.choice (disk.absolute p.root) tree) with
    | none => exact hrun
    | some x => rfl

/-- Files have a result only if nothing is too deep, and it is made of their issues. -/
theorem resultOf_eq_ok_iff {depth : Nat} : resultOf stack depth p found coverage = .ok r ↔
    (depth ≤ stack.folders ∧ ∀ t ∈ found, ¬ t.TooDeep stack) ∧
      r = ⟨dedupe (found.flatMap (targetIssues p)), found.length, coverage⟩ := by
  rw [← firstOverflow?_eq_none_iff, ← Nat.not_lt]
  unfold resultOf
  split
  next hdeep => simp [hdeep]
  next hfolders =>
    cases firstOverflow? stack found with
    | none => simp [hfolders, eq_comm]
    | some x => simp

/-- A scan that is not stopped has its files' issues for a result, and nothing is too deep. -/
theorem of_result_runWithin (hroot : disk.get? (disk.absolute p.root) = some tree)
    (hengine : Engine.ofName? p.engine = some .builtIn)
    (hr : (runWithin disk machine p coverage).result = .ok r) :
    (p.choice.depth (disk.absolute p.root) tree ≤ machine.stack.folders ∧
      ∀ t ∈ targets p.choice (disk.absolute p.root) tree, ¬ t.TooDeep machine.stack) ∧
      r = ⟨dedupe ((targets p.choice (disk.absolute p.root) tree).flatMap (targetIssues p)),
        (targets p.choice (disk.absolute p.root) tree).length, coverage⟩ := by
  rw [result_runWithin hroot hengine] at hr
  exact resultOf_eq_ok_iff.1 hr

/-- What has a value in place of an error gives it. -/
theorem exists_ok_of_isSome {ε α : Type} {x : Except ε α} (h : x.toOption.isSome = true) :
    ∃ a, x = .ok a := by
  cases x with
  | ok a => exact ⟨a, rfl⟩
  | error e => exact absurd h (by simp [Except.toOption])

/-- A plan for Python source and container files. -/
def sourcePlan : Plan where
  root := ⟨.relative, []⟩
  choice :=
    { excludes := [], extensions := ["py"], filenames := ["Dockerfile"], maxFileSizeKb := 1024
      skipGenerated := true }

end Scan

/-- **Without folders and files that are too deep the program needs no larger stack.** -/
theorem Program.runScanWithin_eq_runScan {w : World} {o : CommandLine.ScanOptions}
    (hroom : ∀ p tree, prepare w o = .ok p →
      w.disk.get? (w.disk.absolute p.plan.root) = some tree →
      p.plan.choice.depth (w.disk.absolute p.plan.root) tree ≤ w.machine.stack.folders ∧
        ∀ t ∈ Scan.targets p.plan.choice (w.disk.absolute p.plan.root) tree,
          ¬ t.TooDeep w.machine.stack) :
    runScanWithin w o = runScan w o := by
  unfold runScanWithin runScan
  cases hp : prepare w o with
  | error f => rfl
  | ok p =>
    cases hroot : w.disk.get? (w.disk.absolute p.plan.root) with
    | none => simp only [Scan.runWithin, hroot]
    | some tree =>
      obtain ⟨hfolders, hfiles⟩ := hroom p tree hp hroot
      simp only [Scan.runWithin_eq_run hroot hfolders hfiles]

end CodeAudit
