import CodeAudit.Proofs.Disk.Leading
import CodeAudit.Proofs.Scan.Counting

/-!
# The paths of findings

A finding can name its file in many ways: from the folder of the scan or from the top, with single
and double dots and with slashes more than once. Wherever its text leads (`Path.leadsTo`), if that
is below the root of the scan, the issue is shown under the names from the root to that place. The
built-in checks show the issues of the file there under the same names
(`findings_shown_from_root`).
-/

namespace CodeAudit

/-! ## Findings -/

namespace External

open CodeAudit.Path (leadsTo turn)

variable {folder q : Path} {text : String}

/-- **Where the path of a finding leads**: it is absolute, and its names lead to where the text of
the finding does. -/
theorem leads_of_findingPath (hplain : folder.Plain) (hstraight : ".." ∉ folder.parts)
    (h : findingPath folder text = .ok q) :
    q.Plain ∧ q.isAbsolute = true ∧ q.parts.foldl turn [] = leadsTo folder.parts text.toList ∧
      ∀ n ∈ q.parts, n ∈ folder.parts ∨ n ∈ Path.names text.toList := by
  unfold findingPath at h
  dsimp only at h
  split at h
  next habsolute =>
    obtain rfl := Except.ok.inj h
    refine ⟨Path.plain_ofString text, habsolute, ?_, fun n hn => .inr hn⟩
    rw [Path.leadsTo_eq, if_pos (Path.isAbsolute_ofString_iff.1 habsolute)]
    rfl
  next hrelative =>
    split at h
    · exact absurd h (by simp)
    · obtain rfl := Except.ok.inj h
      have hleads : leadsTo folder.parts text.toList =
          (Path.names text.toList).foldl turn folder.parts := by
        rw [Path.leadsTo_eq, if_neg (mt Path.isAbsolute_ofString_iff.2 hrelative)]
      have hparts : (Path.resolve folder (Path.ofString text)).parts =
          leadsTo folder.parts text.toList := by
        rw [hleads, Path.resolve, Path.join, if_neg hrelative, Path.resolveParts_eq,
          List.foldl_append, List.reverse_nil, Path.foldl_turn_of_straight hstraight]
        rfl
      have hmem : ∀ n ∈ (Path.resolve folder (Path.ofString text)).parts,
          n ∈ folder.parts ∨ n ∈ Path.names text.toList := by
        intro n hn
        rw [hparts, hleads] at hn
        exact (Path.mem_of_mem_foldl_turn hn).imp_right And.left
      refine ⟨fun n hn => ?_, rfl, ?_, hmem⟩
      · exact (hmem n hn).elim (hplain n) (Path.plain_ofString text n)
      · rw [Path.foldl_turn_of_straight (Path.dots_not_mem_resolve _ _), hparts]
        rfl

/-- The issue of a finding has the path of the finding. -/
theorem exists_findingPath_of_issueOf {finding : Json} {found : Issue}
    (h : issueOf folder finding = .ok (some found)) :
    ∃ text q, memberText? finding "path" = some text ∧ findingPath folder text = .ok q ∧
      found.filePath = q.toString := by
  unfold issueOf at h
  split at h
  next rule text hrule htext =>
    obtain ⟨q, hq, h⟩ := bind_eq_ok.1 h
    obtain ⟨line, -, h⟩ := bind_eq_ok.1 h
    obtain ⟨column, -, h⟩ := bind_eq_ok.1 h
    obtain rfl := Option.some.inj (Except.ok.inj h)
    exact ⟨text, q, htext, hq, rfl⟩
  next => exact absurd h (by simp)

/-- **The issues of findings** are those of the single ones. -/
theorem mem_issuesOf_iff {findings : List Json} {issues : List Issue} {found : Issue}
    (h : issuesOf folder findings = .ok issues) :
    found ∈ issues ↔ ∃ finding ∈ findings, issueOf folder finding = .ok (some found) := by
  induction findings generalizing issues with
  | nil =>
    obtain rfl := Except.ok.inj h
    simp
  | cons finding rest ih =>
    simp only [List.mem_cons, exists_eq_or_imp]
    cases htelling : isTelling finding with
    | false =>
      rw [issuesOf_of_not_telling htelling] at h
      have hnone : issueOf folder finding = .ok none := by
        cases finding with
        | obj members => exact issueOf_of_not_telling htelling
        | _ => rfl
      rw [ih h, hnone]
      simp
    | true =>
      obtain ⟨first, others, hfirst, hothers, rfl⟩ := (issuesOf_of_telling htelling).1 h
      rw [List.mem_cons, ih hothers, hfirst, Except.ok.injEq, Option.some.injEq, eq_comm]

/-- Where findings are read, each that tells something has an issue. -/
theorem exists_issueOf_of_issuesOf {findings : List Json} {issues : List Issue} {finding : Json}
    (h : issuesOf folder findings = .ok issues) (hmem : finding ∈ findings)
    (htelling : isTelling finding = true) :
    ∃ found, issueOf folder finding = .ok (some found) := by
  have hplaced := exists_issuesOf_iff.1 ⟨issues, h⟩ finding (List.mem_filter.2 ⟨hmem, htelling⟩)
  obtain ⟨found?, hissue⟩ := (exists_issueOf_iff htelling).2 hplaced
  obtain ⟨found, rfl, -⟩ := exists_tells_of_issueOf htelling hissue
  exact ⟨found, hissue⟩

end External

namespace Scan

open CodeAudit.Path (leadsTo)

variable {disk : Disk} {machine : External.Machine} {p : Plan} {coverage : Option Coverage}
  {root : Path} {names : List String} {engine : Engine}

/-- **The path of a finding below the root is shown from there.** -/
theorem shownPath_of_findingPath {text : String} {q : Path} (hplain : root.Plain)
    (hstraight : ".." ∉ root.parts) (hslash : root.root = .slash)
    (hnull : ∀ n ∈ root.parts, Char.ofNat 0 ∉ n.toList) (htext : Char.ofNat 0 ∉ text.toList)
    (h : External.findingPath root text = .ok q)
    (hleads : leadsTo root.parts text.toList = root.parts ++ names) (hnames : names ≠ []) :
    shownPath disk root (Path.ofString q.toString) = "/".intercalate names := by
  obtain ⟨hq, habsolute, hplace, hmem⟩ := External.leads_of_findingPath hplain hstraight h
  have hfree : Char.ofNat 0 ∉ q.toString.toList := by
    rw [Path.mem_toString_iff (by decide) habsolute]
    rintro ⟨n, hn, hc⟩
    exact (hmem n hn).elim (fun hn => hnull n hn hc) fun hn => htext (Path.mem_of_mem_names hn hc)
  have hresolved : disk.absolute q = ⟨.slash, root.parts ++ names⟩ := by
    rw [Disk.absolute, Path.resolve_of_absolute habsolute, hplace, hleads]
  have hrelative : (disk.absolute q).relativeTo? root = some ⟨.relative, names⟩ := by
    rw [hresolved, Path.relativeTo?, if_pos ⟨hslash.symm, by simp⟩, List.drop_left]
  rw [Path.ofString_toString hq habsolute, shownPath, if_neg (by simpa using hfree), hrelative]
  exact Path.toString_relative hnames

/-! ## Scans -/

/-- Whether the issue of a finding is kept: its rule is reported, and no comment in the file that it
names silences it. -/
def keepsFinding (disk : Disk) (p : Plan) (found : Issue) : Bool :=
  p.externalRules.allow found.ruleId &&
    !isSilenced (if p.inlineIgnore then silencedAt disk (Path.ofString found.filePath) else [])
      found

theorem mem_kept_iff {rules : Rules} {silenced : List (Nat × List String)} {shown : String}
    {issues : List Issue} {i : Issue} : i ∈ kept rules silenced shown issues ↔
      ∃ found ∈ issues, (rules.allow found.ruleId && !isSilenced silenced found) = true ∧
        i = { found with filePath := shown } := by
  rw [kept, List.mem_filter, List.mem_map]
  constructor
  · rintro ⟨⟨found, hfound, rfl⟩, hkept⟩
    exact ⟨found, hfound, hkept, rfl⟩
  · rintro ⟨found, hfound, hkept, rfl⟩
    exact ⟨⟨found, hfound, rfl⟩, hkept⟩

/-- **The findings that are kept**, each under the path by which it is shown. -/
theorem mem_externalKept_iff {issues : List Issue} {i : Issue} :
    i ∈ (externalKept disk p root false issues).flatMap (·.2) ↔
      ∃ found ∈ issues, keepsFinding disk p found = true ∧
        i = { found with filePath := shownPath disk root (Path.ofString found.filePath) } := by
  rw [List.mem_flatMap]
  constructor
  · rintro ⟨group, hgroup, hi⟩
    obtain ⟨named, hnamed, rfl⟩ := List.mem_map.1 hgroup
    obtain ⟨path, -, rfl⟩ := List.mem_map.1 hnamed
    obtain ⟨found, hfound, hkept, rfl⟩ := mem_kept_iff.1 hi
    obtain ⟨hissue, hpath⟩ := List.mem_filter.1 hfound
    obtain rfl := beq_iff_eq.1 hpath
    exact ⟨found, hissue, hkept, rfl⟩
  · rintro ⟨found, hfound, hkept, rfl⟩
    have hpath : Path.ofString found.filePath ∈
        (issues.map fun i => Path.ofString i.filePath).eraseDups :=
      List.mem_eraseDups.2 (List.mem_map.2 ⟨found, hfound, rfl⟩)
    refine ⟨_, List.mem_map.2 ⟨_, List.mem_map.2 ⟨_, hpath, rfl⟩, rfl⟩, mem_kept_iff.2 ?_⟩
    exact ⟨found, List.mem_filter.2 ⟨hfound, beq_self_eq_true _⟩, hkept, rfl⟩

theorem exists_scan_of_externalFindings {tree : FileTree} {found : List (String × List Issue)}
    (h : externalFindings disk machine p tree = .ok found) :
    ∃ issues, (External.scan disk machine (disk.absolute p.root) p.external).2 = .ok issues ∧
      found = externalKept disk p (disk.absolute p.root) (!tree.isFolder) issues := by
  unfold externalFindings at h
  split at h
  next => exact absurd h (by simp)
  next issues hscan =>
    split at h
    · exact absurd h (by simp)
    · exact ⟨issues, hscan, (Except.ok.inj h).symm⟩

/-- The issues that the external scanner reports to a scan of a folder are those of its findings. -/
theorem issuesOf_of_scan {entries : List (String × FileTree)} {issues : List Issue}
    {members : List (String × Json)} (hroot : disk.get? root = some (.folder entries))
    (hreport : Json.read (Text.trim machine.reply.output.toList) = .ok (.obj members))
    (h : (External.scan disk machine root p.external).2 = .ok issues) :
    External.issuesOf root (External.results members) = .ok issues := by
  obtain ⟨-, hreply⟩ := External.scan_eq_ok_iff.1 h
  rw [External.place, hroot] at hreply
  rcases External.readReply_eq_ok_iff.1 hreply with ⟨hblank, -, -⟩ | ⟨-, members', hread, hissues⟩
  · -- blank output is no report
    rw [hblank] at hreport
    exact absurd hreport (by simp [show Json.read [] = .error _ from rfl])
  · obtain rfl : members' = members := by simpa using hread.symm.trans hreport
    exact (External.issuesIn_eq_ok_iff.1 hissues).2.1

/-- A finding names a place below a folder, by a text without null characters. -/
def NamesPlace (root : List String) (finding : Json) (names : List String) : Prop :=
  names ≠ [] ∧ ∃ text, External.memberText? finding "path" = some text ∧
    Char.ofNat 0 ∉ text.toList ∧ leadsTo root text.toList = root ++ names

/-- The issue of a finding that names a place is shown under the names that lead there. -/
theorem shownPath_of_namesPlace {finding : Json} {found : Issue} {tree : FileTree}
    (hproper : disk.tree.Proper) (hroot : disk.get? (disk.absolute root) = some tree)
    (hissue : External.issueOf (disk.absolute root) finding = .ok (some found))
    (hplace : NamesPlace (disk.absolute root).parts finding names) :
    shownPath disk (disk.absolute root) (Path.ofString found.filePath) = "/".intercalate names := by
  obtain ⟨hnames, text, htext, hfree, hleads⟩ := hplace
  obtain ⟨text', q, htext', hq, hpath⟩ := External.exists_findingPath_of_issueOf hissue
  obtain rfl : text' = text := Option.some.inj (htext'.symm.trans htext)
  obtain ⟨hplain, hnull⟩ := Disk.plain_of_get? hproper rfl hroot
  rw [hpath]
  exact shownPath_of_findingPath hplain (Path.dots_not_mem_resolve _ _) rfl hnull hfree hq hleads
    hnames

/-- A file that is scanned is shown under the names that lead to it. -/
theorem exists_names_of_target {entries : List (String × FileTree)} {t : Target}
    (h : t ∈ targets p.choice root (.folder entries)) :
    ∃ names, t.path = below root names ∧ t.shown = "/".intercalate names := by
  rw [targets_folder] at h
  obtain ⟨x, hx, rfl⟩ := List.mem_map.1 h
  have hnames : x.1 ≠ [] :=
    FileTree.ne_nil_of_mem_walk [] entries x (List.mem_filter.1 hx).1
  exact ⟨x.1, rfl, Path.toString_relative hnames⟩

/-- **Findings are shown under the paths from the root of the scan.** Each issue of the external
scanner in the result of a scan is that of a finding. If the text of the finding leads to a place
below the root, the issue is shown under the names from there to that place, and so are the issues
of the built-in checks for the file that lies there. No finding that is kept is missing. -/
theorem findings_shown_from_root {entries : List (String × FileTree)}
    {members : List (String × Json)} {r : ScanResult} (hproper : disk.tree.Proper)
    (hroot : disk.get? (disk.absolute p.root) = some (.folder entries))
    (hengine : Engine.ofName? p.engine = some engine) (hruns : engine.runsExternal = true)
    (hreport : Json.read (Text.trim machine.reply.output.toList) = .ok (.obj members))
    (hr : (runWithin disk machine p coverage).result = .ok r) :
    (∀ i ∈ r.issues, isMarked i = true → ∃ finding ∈ External.results members, ∃ found,
      External.issueOf (disk.absolute p.root) finding = .ok (some found) ∧
      i = { found with filePath := i.filePath } ∧
      ∀ names, NamesPlace (disk.absolute p.root).parts finding names →
        i.filePath = "/".intercalate names) ∧
    (∀ finding ∈ External.results members, ∀ names,
      NamesPlace (disk.absolute p.root).parts finding names → External.isTelling finding = true →
        ∃ found, External.issueOf (disk.absolute p.root) finding = .ok (some found) ∧
          (keepsFinding disk p found = true → ∃ i ∈ r.issues,
            i.fingerprint.same { found with filePath := "/".intercalate names }.fingerprint)) ∧
    ∀ i ∈ r.issues, isMarked i = false → ∃ t names,
      t ∈ targets p.choice (disk.absolute p.root) (.folder entries) ∧ i ∈ targetIssues p t ∧
        t.path = below (disk.absolute p.root) names ∧ i.filePath = "/".intercalate names := by
  obtain ⟨groups, hgroups, hissues, -⟩ :=
    exists_of_result_external hroot hengine hruns (run_of_runWithin hr)
  obtain ⟨issues, hscan, rfl⟩ := exists_scan_of_externalFindings hgroups
  have hfindings := issuesOf_of_scan hroot hreport hscan
  have hmarked := isMarked_of_mem_externalFindings hgroups
  have hown : ∀ i ∈ (if engine.runsChecks then
      (targets p.choice (disk.absolute p.root) (.folder entries)).flatMap (targetIssues p)
      else []), isMarked i = false := by
    split
    · exact isMarked_of_mem_targetIssues
    · exact fun i hi => absurd hi List.not_mem_nil
  rw [hissues]
  refine ⟨fun i hi hmark => ?_, fun finding hfinding names hplace htelling => ?_,
    fun i hi hmark => ?_⟩
  · rcases List.mem_append.1 (mem_of_mem_dedupe hi) with hi | hi
    · exact absurd (hown i hi) (by simp [hmark])
    · obtain ⟨found, hfound, -, rfl⟩ := mem_externalKept_iff.1 hi
      obtain ⟨finding, hfinding, hissue⟩ := (External.mem_issuesOf_iff hfindings).1 hfound
      exact ⟨finding, hfinding, found, hissue, rfl,
        fun names hplace => shownPath_of_namesPlace hproper hroot hissue hplace⟩
  · obtain ⟨found, hissue⟩ := External.exists_issueOf_of_issuesOf hfindings hfinding htelling
    refine ⟨found, hissue, fun hkept => ?_⟩
    rw [← shownPath_of_namesPlace hproper hroot hissue hplace]
    refine exists_same_of_mem (List.mem_append_right _ (mem_externalKept_iff.2 ?_))
    exact ⟨found, (External.mem_issuesOf_iff hfindings).2 ⟨finding, hfinding, hissue⟩, hkept, rfl⟩
  · rcases List.mem_append.1 (mem_of_mem_dedupe hi) with hi | hi
    · split at hi
      · obtain ⟨t, ht, hi⟩ := List.mem_flatMap.1 hi
        obtain ⟨names, hpath, hshown⟩ := exists_names_of_target ht
        exact ⟨t, names, ht, hi, hpath, (filePath_of_mem_targetIssues hi).trans hshown⟩
      · exact absurd hi List.not_mem_nil
    · exact absurd (hmarked i hi) (by simp [hmark])

/-- A report that passes a test can be read. -/
theorem exists_members_of_any {text : List Char} {test : List (String × Json) → Bool}
    (h : ((Json.read text).toOption.bind Json.members?).any test = true) :
    ∃ members, Json.read text = .ok (.obj members) ∧ test members = true := by
  cases hread : Json.read text with
  | error e => simp [hread, Except.toOption] at h
  | ok report =>
    cases report with
    | obj members => exact ⟨members, rfl, by simpa [hread, Except.toOption, Json.members?] using h⟩
    | _ => simp [hread, Except.toOption, Json.members?] at h

/-- A service in a folder below the current one. -/
def serviceDisk : Disk where
  tree := .folder [("srv", .folder [("app", .folder [("Dockerfile", .file ⟨[], true⟩)])])]
  current := ⟨.slash, ["srv"]⟩

/-- A machine whose scanner names one file from the folder of the scan and from the top, in a
roundabout way. -/
def roundaboutMachine : External.Machine where
  reply := { output := "\x7b\"results\": [" ++
    "\x7b\"check_id\": \"a\", \"path\": \"old/.//../Dockerfile\"\x7d, " ++
    "\x7b\"check_id\": \"b\", \"path\": \"//srv/app/../app//Dockerfile\"\x7d]\x7d" }

/-- A scan of the service with both engines. -/
def servicePlan : Plan :=
  { selecting [] with root := ⟨.relative, ["app"]⟩, engine := "hybrid" }

/-- The disk is a proper one. -/
theorem proper_serviceDisk : serviceDisk.tree.Proper := by
  have hone : ∀ name tree, FileTree.isName name = true → tree.Proper →
      (FileTree.folder [(name, tree)]).Proper := by
    intro name tree hname htree
    refine .folder (by simp) (by simpa using hname) fun e he => ?_
    obtain rfl := List.mem_singleton.1 he
    exact htree
  exact hone _ _ (by decide) (hone _ _ (by decide) (hone _ _ (by decide) (.file _)))

/-- Whether a finding names the file of the service, and has an issue of a rule that is kept. -/
def findsInService (rule : String) (finding : Json) : Bool :=
  ((External.memberText? finding "path").any fun text =>
    !text.toList.contains (Char.ofNat 0) &&
      leadsTo ["srv", "app"] text.toList == ["srv", "app", "Dockerfile"]) &&
  External.isTelling finding &&
  (External.issueOf ⟨.slash, ["srv", "app"]⟩ finding).toOption.join.any fun found =>
    found.ruleId == rule && keepsFinding serviceDisk servicePlan found

theorem namesPlace_of_findsInService {rule : String} {finding : Json}
    (h : findsInService rule finding = true) :
    NamesPlace ["srv", "app"] finding ["Dockerfile"] := by
  obtain ⟨hnames, -⟩ := Bool.and_eq_true_iff.1 h
  obtain ⟨text, htext, hplace⟩ := (Option.any_eq_true _ _).1 (Bool.and_eq_true_iff.1 hnames).1
  refine ⟨by decide, text, htext, ?_⟩
  simpa using hplace

/-- Both findings are kept, and all issues are shown under one path. -/
theorem one_path_for_roundabout_findings :
    ∃ r, (runWithin serviceDisk roundaboutMachine servicePlan none).result = .ok r ∧
      (∀ i ∈ r.issues, i.filePath = "Dockerfile") ∧
        ∀ rule ∈ ["SG:a", "SG:b"], ∃ i ∈ r.issues, i.ruleId = rule := by
  have hroot : serviceDisk.get? (serviceDisk.absolute servicePlan.root) =
      some (.folder [("Dockerfile", .file ⟨[], true⟩)]) := rfl
  have hfinds : ((Json.read (Text.trim roundaboutMachine.reply.output.toList)).toOption.bind
      Json.members?).any (fun members =>
        ((External.results members).all fun finding =>
          ["SG:a", "SG:b"].any fun rule => findsInService rule finding) &&
        ["SG:a", "SG:b"].all fun rule =>
          (External.results members).any (findsInService rule)) = true := by decide +kernel
  have htargets : ∀ t ∈ targets servicePlan.choice (serviceDisk.absolute servicePlan.root)
      (.folder [("Dockerfile", .file ⟨[], true⟩)]),
        t.path.parts = ["srv", "app", "Dockerfile"] := by decide +kernel
  obtain ⟨r, hr⟩ : ∃ r, (runWithin serviceDisk roundaboutMachine servicePlan none).result =
      .ok r := exists_ok_of_isSome (by decide +kernel)
  obtain ⟨members, hread, hfinds⟩ := exists_members_of_any hfinds
  obtain ⟨hall, hany⟩ := Bool.and_eq_true_iff.1 hfinds
  obtain ⟨hmarked, hkept, hown⟩ := @findings_shown_from_root serviceDisk roundaboutMachine
    servicePlan none .hybrid _ members r proper_serviceDisk hroot (by decide) rfl hread hr
  refine ⟨r, hr, fun i hi => ?_, fun rule hrule => ?_⟩
  · cases hmark : isMarked i with
    | true =>
      obtain ⟨finding, hfinding, -, -, -, hshown⟩ := hmarked i hi hmark
      obtain ⟨rule, -, hrule⟩ := List.any_eq_true.1 (List.all_eq_true.1 hall finding hfinding)
      exact hshown _ (namesPlace_of_findsInService hrule)
    | false =>
      obtain ⟨t, names, ht, -, hpath, hshown⟩ := hown i hi hmark
      have hnames : ["srv", "app"] ++ names = ["srv", "app", "Dockerfile"] :=
        (congrArg Path.parts hpath).symm.trans (htargets t ht)
      obtain rfl : names = ["Dockerfile"] := by simpa using hnames
      exact hshown
  · obtain ⟨finding, hfinding, hfinds⟩ := List.any_eq_true.1 (List.all_eq_true.1 hany rule hrule)
    obtain ⟨htells, hissue⟩ := Bool.and_eq_true_iff.1 hfinds
    obtain ⟨found, hfound, hsame⟩ := hkept finding hfinding _ (namesPlace_of_findsInService hfinds)
      (Bool.and_eq_true_iff.1 htells).2
    obtain ⟨found', hfound', hkeeps⟩ := (Option.any_eq_true _ _).1 hissue
    have hfound : External.issueOf ⟨.slash, ["srv", "app"]⟩ finding = .ok (some found) := hfound
    rw [hfound] at hfound'
    obtain rfl : found = found' := Option.some.inj hfound'
    obtain ⟨hname, hkeeps⟩ := Bool.and_eq_true_iff.1 hkeeps
    obtain ⟨i, hi, hsame⟩ := hsame hkeeps
    exact ⟨i, hi, (Fingerprint.same_iff.1 hsame).2.1.trans (beq_iff_eq.1 hname)⟩

end Scan

end CodeAudit
