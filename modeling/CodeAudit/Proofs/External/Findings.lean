import CodeAudit.External.Scan
import CodeAudit.Gate
import CodeAudit.Proofs.Disk.Writing
import Mathlib.Data.List.Forall2

/-!
# What becomes of findings

A report of the external scanner can be any JSON value. Of its results those count that have the
name of a rule and a path, and every one of them becomes one issue, in their order
(`forall₂_of_issuesOf`). A result that counts but has no place to be shown at, or a report without
results from a program that has failed, is an error. So no failure passes for a scan without
findings, and where there is a result nothing is left out of it (`readReply_eq_ok_iff`).
-/

namespace CodeAudit.External

variable {disk : Disk} {machine : Machine} {stack : Stack} {root folder : Path} {request : Request}
  {reply : Reply} {finding : Json} {rest : List Json} {members : List (String × Json)}
  {issues : List Issue} {i : Issue} {name : String}

/-! ## Single findings -/

/-- Whether a member is a string with more in it than blanks. -/
def hasText (members : List (String × Json)) (name : String) : Bool :=
  match Json.member? members name with
  | some (.str s) => !(Text.trim s.toList).isEmpty
  | _ => false

/-- Whether a finding has the name of its rule and a path. -/
def isTelling : Json → Bool
  | .obj members => hasText members "check_id" && hasText members "path"
  | _ => false

/-- **What a finding tells**: an issue of its rule, with a severity that has a rank. -/
def Tells (finding : Json) (i : Issue) : Prop :=
  ∃ members rule, finding = .obj members ∧ Json.member? members "check_id" = some (.str rule) ∧
    i.ruleId = "SG:" ++ String.ofList (Text.trim rule.toList) ∧
    i.severity ∈ [Severity.low, .medium, .high, .critical]

/-- A finding whose start has a coordinate without a whole part. -/
def StartsAt (finding : Json) (name : String) (fault : Number.WholeFault) : Prop :=
  ∃ x, (objectMember finding "start").get? name = some (.float x) ∧
    Number.wholePart x = .error fault

/-- A finding that can be shown: its path, if it is relative, has no null character, and the
coordinates of its start have whole parts. -/
structure Placed (finding : Json) : Prop where
  path : ∀ text, memberText? finding "path" = some text →
    (Path.ofString text).isAbsolute = true ∨ Char.ofNat 0 ∉ text.toList
  line : ∀ fault, ¬ StartsAt finding "line" fault
  column : ∀ fault, ¬ StartsAt finding "col" fault

/-- The text of a member is what its string has without the blanks around it. -/
theorem memberText?_eq_some_iff {text : String} :
    memberText? (.obj members) name = some text ↔
      ∃ s, Json.member? members name = some (.str s) ∧ Text.trim s.toList ≠ [] ∧
        text = String.ofList (Text.trim s.toList) := by
  rw [memberText?, Json.get?, Option.bind_eq_some_iff]
  constructor
  · rintro ⟨v, hv, htext⟩
    cases v with
    | str s =>
      rw [text?] at htext
      split at htext
      · exact absurd htext (by simp)
      next hne =>
        refine ⟨s, hv, fun hnil => hne ?_, (Option.some.inj htext).symm⟩
        rw [hnil]
    | _ => exact absurd htext (by simp [text?])
  · rintro ⟨s, hs, hne, rfl⟩
    refine ⟨_, hs, ?_⟩
    rw [text?, if_neg]
    intro hempty
    exact hne (by simpa using congrArg String.toList hempty)

/-- A member has text exactly if it is a string of which something is left. -/
theorem hasText_iff : hasText members name = true ↔
    ∃ text, memberText? (.obj members) name = some text := by
  have htext : hasText members name = true ↔
      ∃ s, Json.member? members name = some (.str s) ∧ Text.trim s.toList ≠ [] := by
    unfold hasText
    split
    next s hs => simp [hs]
    next hother =>
      refine iff_of_false (by simp) ?_
      rintro ⟨s, hs, -⟩
      exact hother s hs
  rw [htext]
  constructor
  · rintro ⟨s, hs, hne⟩
    exact ⟨_, memberText?_eq_some_iff.2 ⟨s, hs, hne, rfl⟩⟩
  · rintro ⟨text, h⟩
    obtain ⟨s, hs, hne, -⟩ := memberText?_eq_some_iff.1 h
    exact ⟨s, hs, hne⟩

/-- A coordinate fails exactly if it is a double without a whole part. -/
theorem coord_eq_error {v : Option Json} {fault : Number.WholeFault} {default : Int} :
    coord default (v.getD .null) = .error fault ↔
      ∃ x, v = some (.float x) ∧ Number.wholePart x = .error fault := by
  cases v with
  | none => simp [coord]
  | some j =>
    cases j with
    | float x =>
      cases hx : Number.wholePart x with
      | ok n => simp [coord, hx, bind, Except.bind, pure, Except.pure]
      | error f => simp [coord, hx, bind, Except.bind]
    | _ => simp [coord]

/-- A coordinate is read exactly if it has a whole part. -/
theorem exists_coord_iff :
    (∃ c, (coord 1 (((objectMember finding "start").get? name).getD .null)).mapError
      FindingFault.coordinate = .ok c) ↔ ∀ fault, ¬ StartsAt finding name fault := by
  simp only [mapError_eq_ok]
  cases hcoord : coord 1 (((objectMember finding "start").get? name).getD .null) with
  | ok c =>
    refine iff_of_true ⟨c, rfl⟩ fun fault hstart => ?_
    rw [coord_eq_error.2 hstart] at hcoord
    exact absurd hcoord (by simp)
  | error fault => exact iff_of_false (by simp) fun h => h fault (coord_eq_error.1 hcoord)

/-- A path can be used unless it is relative and has a null character. -/
theorem exists_findingPath_iff {text : String} :
    (∃ p, findingPath folder text = .ok p) ↔
      (Path.ofString text).isAbsolute = true ∨ Char.ofNat 0 ∉ text.toList := by
  unfold findingPath
  dsimp only
  split
  next habsolute => simp [habsolute]
  next hrelative =>
    split
    next hnull => simpa [hrelative] using hnull
    next hnull => simpa [hrelative] using hnull

/-- Whatever a severity is called there, it has a rank here. -/
theorem severity_mem (name : Option String) :
    severity name ∈ [Severity.low, .medium, .high, .critical] := by
  unfold severity
  dsimp only
  split
  · decide
  · split
    · decide
    · split
      · decide
      · decide

/-- The mark of the external scanner, as a text. -/
theorem ofList_externalMark : String.ofList Security.externalMark = "SG:" := by decide

/-- What has no rule or no path is passed over. -/
theorem issueOf_of_not_telling (h : isTelling (.obj members) = false) :
    issueOf folder (.obj members) = .ok none := by
  unfold issueOf
  split
  next rule path hrule hpath =>
    have htelling : isTelling (.obj members) = true := by
      rw [isTelling, hasText_iff.2 ⟨rule, hrule⟩, hasText_iff.2 ⟨path, hpath⟩]
      rfl
    exact absurd htelling (by simp [h])
  next => rfl

/-- **A finding that is read and has a rule and a path tells an issue.** -/
theorem exists_tells_of_issueOf {found : Option Issue} (htelling : isTelling finding = true)
    (h : issueOf folder finding = .ok found) : ∃ i, found = some i ∧ Tells finding i := by
  cases finding with
  | obj members =>
    rw [isTelling, Bool.and_eq_true] at htelling
    obtain ⟨rule, hrule⟩ := hasText_iff.1 htelling.1
    obtain ⟨path, hpath⟩ := hasText_iff.1 htelling.2
    obtain ⟨s, hs, -, rfl⟩ := memberText?_eq_some_iff.1 hrule
    rw [issueOf, hrule, hpath] at h
    obtain ⟨place, -, h⟩ := bind_eq_ok.1 h
    obtain ⟨line, -, h⟩ := bind_eq_ok.1 h
    obtain ⟨column, -, h⟩ := bind_eq_ok.1 h
    obtain rfl := Except.ok.inj h
    refine ⟨_, rfl, members, s, rfl, hs, ?_, ?_⟩
    · dsimp only
      rw [ofList_externalMark]
    · dsimp only
      exact severity_mem _
  | _ => exact absurd htelling (by simp [isTelling])

/-- **Such a finding is read exactly if it can be shown.** -/
theorem exists_issueOf_iff (htelling : isTelling finding = true) :
    (∃ found, issueOf folder finding = .ok found) ↔ Placed finding := by
  cases finding with
  | obj members =>
    rw [isTelling, Bool.and_eq_true] at htelling
    obtain ⟨rule, hrule⟩ := hasText_iff.1 htelling.1
    obtain ⟨path, hpath⟩ := hasText_iff.1 htelling.2
    constructor
    · rintro ⟨found, h⟩
      rw [issueOf, hrule, hpath] at h
      obtain ⟨place, hplace, h⟩ := bind_eq_ok.1 h
      obtain ⟨line, hline, h⟩ := bind_eq_ok.1 h
      obtain ⟨column, hcolumn, -⟩ := bind_eq_ok.1 h
      refine ⟨fun text htext => ?_, exists_coord_iff.1 ⟨line, hline⟩,
        exists_coord_iff.1 ⟨column, hcolumn⟩⟩
      obtain rfl := Option.some.inj (hpath.symm.trans htext)
      exact exists_findingPath_iff.1 ⟨place, hplace⟩
    · intro h
      obtain ⟨place, hplace⟩ := exists_findingPath_iff.2 (h.path path hpath)
      obtain ⟨line, hline⟩ := exists_coord_iff.2 h.line
      obtain ⟨column, hcolumn⟩ := exists_coord_iff.2 h.column
      rw [issueOf, hrule, hpath]
      exact ⟨_, bind_eq_ok.2 ⟨place, hplace, bind_eq_ok.2 ⟨line, hline,
        bind_eq_ok.2 ⟨column, hcolumn, rfl⟩⟩⟩⟩
  | _ => exact absurd htelling (by simp [isTelling])

/-! ## Lists of findings -/

/-- What tells nothing is passed over. -/
theorem issuesOf_of_not_telling (h : isTelling finding = false) :
    issuesOf folder (finding :: rest) = issuesOf folder rest := by
  cases finding with
  | obj members =>
    rw [issuesOf, issueOf_of_not_telling h]
    cases issuesOf folder rest with
    | error f => rfl
    | ok others => rfl
  | _ => rfl

/-- What tells something comes before the rest. -/
theorem issuesOf_of_telling (h : isTelling finding = true) :
    issuesOf folder (finding :: rest) = .ok issues ↔
      ∃ i others, issueOf folder finding = .ok (some i) ∧ issuesOf folder rest = .ok others ∧
        issues = i :: others := by
  cases finding with
  | obj members =>
    rw [issuesOf, bind_eq_ok]
    constructor
    · rintro ⟨first, hfirst, hrest⟩
      obtain ⟨others, hothers, hall⟩ := bind_eq_ok.1 hrest
      -- having a rule and a path, it is not passed over once it is read
      obtain ⟨i, rfl, -⟩ := exists_tells_of_issueOf h hfirst
      exact ⟨i, others, hfirst, hothers, (Except.ok.inj hall).symm⟩
    · rintro ⟨i, others, hfirst, hothers, rfl⟩
      exact ⟨some i, hfirst, bind_eq_ok.2 ⟨others, hothers, rfl⟩⟩
  | _ => exact absurd h (by simp [isTelling])

/-- **Findings are neither lost nor invented**: one issue for each that tells something, in their
order. -/
theorem forall₂_of_issuesOf {findings : List Json} (h : issuesOf folder findings = .ok issues) :
    List.Forall₂ Tells (findings.filter isTelling) issues := by
  induction findings generalizing issues with
  | nil =>
    obtain rfl := Except.ok.inj h
    exact .nil
  | cons finding rest ih =>
    cases htelling : isTelling finding with
    | false =>
      rw [issuesOf_of_not_telling htelling] at h
      rw [List.filter_cons_of_neg (by simp [htelling])]
      exact ih h
    | true =>
      obtain ⟨i, others, hfirst, hothers, rfl⟩ := (issuesOf_of_telling htelling).1 h
      obtain ⟨j, hj, htells⟩ := exists_tells_of_issueOf htelling hfirst
      obtain rfl := Option.some.inj hj
      rw [List.filter_cons_of_pos htelling]
      exact .cons htells (ih hothers)

/-- **Findings are read exactly if all that tell something can be shown.** -/
theorem exists_issuesOf_iff {findings : List Json} :
    (∃ issues, issuesOf folder findings = .ok issues) ↔
      ∀ finding ∈ findings.filter isTelling, Placed finding := by
  induction findings with
  | nil => exact iff_of_true ⟨[], rfl⟩ (by simp)
  | cons finding rest ih =>
    cases htelling : isTelling finding with
    | false =>
      rw [issuesOf_of_not_telling htelling, List.filter_cons_of_neg (by simp [htelling])]
      exact ih
    | true =>
      rw [List.filter_cons_of_pos htelling, List.forall_mem_cons, ← exists_issueOf_iff htelling,
        ← ih]
      constructor
      · rintro ⟨issues, h⟩
        obtain ⟨i, others, hfirst, hothers, -⟩ := (issuesOf_of_telling htelling).1 h
        exact ⟨⟨_, hfirst⟩, others, hothers⟩
      · rintro ⟨⟨found, hfirst⟩, others, hothers⟩
        obtain ⟨i, rfl, -⟩ := exists_tells_of_issueOf htelling hfirst
        exact ⟨_, (issuesOf_of_telling htelling).2 ⟨i, others, hfirst, hothers, rfl⟩⟩

/-! ## Reports -/

/-- The results in a report. -/
def results (members : List (String × Json)) : List Json :=
  match Json.member? members "results" with
  | some (.arr items) => items
  | _ => []

/-- Whether a value can be gone through. -/
def isIterable : Json → Bool
  | .arr _ | .str _ | .obj _ => true
  | _ => false

/-- The findings of a report are its results, unless there is something there that cannot be gone
through. -/
theorem findings_eq_ok_iff {items : List Json} : findings (.obj members) = .ok items ↔
    results members = items ∧
      ∀ found, Json.member? members "results" = some found → isIterable found = true := by
  rw [findings, Json.get?, results]
  cases Json.member? members "results" with
  | none => simp
  | some found =>
    cases found with
    | arr found => simp [isIterable]
    | str s => simp [isIterable]
    | obj found => simp [isIterable]
    | _ => simp [isIterable]

/-- **A report is answered** with the issues of its results, if there are any or the program has
not failed. -/
theorem issuesIn_eq_ok_iff : issuesIn folder reply (.obj members) = .ok issues ↔
    (∀ found, Json.member? members "results" = some found → isIterable found = true) ∧
      issuesOf folder (results members) = .ok issues ∧ (reply.code = 0 ∨ issues ≠ []) := by
  rw [issuesIn, bind_eq_ok]
  constructor
  · rintro ⟨items, hitems, h⟩
    obtain ⟨rfl, hlist⟩ := findings_eq_ok_iff.1 hitems
    obtain ⟨found, hfound, h⟩ := bind_eq_ok.1 h
    split at h
    next hdone =>
      obtain rfl := Except.ok.inj h
      exact ⟨hlist, mapError_eq_ok.1 hfound, by simpa [or_comm] using hdone⟩
    next =>
      split at h
      · exact absurd h (by simp)
      · exact absurd h (by simp)
  · rintro ⟨hlist, hfound, hdone⟩
    refine ⟨_, findings_eq_ok_iff.2 ⟨rfl, hlist⟩,
      bind_eq_ok.2 ⟨issues, mapError_eq_ok.2 hfound, ?_⟩⟩
    rw [if_pos (by simpa [or_comm] using hdone)]
    rfl

/-- **A text is read as a report** if it is not too deep, and the report is answered. -/
theorem readReport_eq_ok_iff {text : List Char} :
    readReport stack folder reply text = .ok issues ↔ stack.json? text = none ∧
      ∃ members, Json.read text = .ok (.obj members) ∧
        issuesIn folder reply (.obj members) = .ok issues := by
  unfold readReport
  cases stack.json? text with
  | some complaint => simp
  | none =>
    cases Json.read text with
    | error e =>
      cases e with
      | fault f => simp
      | tooManyDigits digits => simp
    | ok report =>
      cases report with
      | obj members => simp
      | _ => simp [issuesIn]

/-- **An answer is read** if nothing was put out without a failure, or if it is a report that is
answered. -/
theorem readReply_eq_ok_iff : readReply stack folder reply = .ok issues ↔
    (Text.trim reply.output.toList = [] ∧ reply.code = 0 ∧ issues = []) ∨
      stack.json? (Text.trim reply.output.toList) = none ∧
        ∃ members, Json.read (Text.trim reply.output.toList) = .ok (.obj members) ∧
          issuesIn folder reply (.obj members) = .ok issues := by
  unfold readReply
  generalize Text.trim reply.output.toList = text
  cases text with
  | nil =>
    have hread : ∃ e, Json.read [] = .error e := ⟨_, rfl⟩
    obtain ⟨e, he⟩ := hread
    simp only [he]
    split
    next hcode => simp [hcode, eq_comm]
    next hcode => simp [hcode]
  | cons c text => simp [readReport_eq_ok_iff]

/-! ## Scans -/

/-- **A command that can be started**: what is handed over are texts without null characters, unless
the machine takes anything. -/
def Starts (machine : Machine) (command : List Toml.Value) : Prop :=
  machine.takesAnything = true ∨ ∀ v ∈ command, ∃ s, v = .str s ∧ Char.ofNat 0 ∉ s.toList

/-- An argument can be handed over exactly if it is a text without null characters. -/
theorem argumentFault?_eq_none_iff {v : Toml.Value} :
    argumentFault? v = none ↔ ∃ s, v = .str s ∧ Char.ofNat 0 ∉ s.toList := by
  cases v with
  | str s => simp [argumentFault?]
  | _ => simp [argumentFault?]

/-- There is no fault in starting a program exactly if it can be started. -/
theorem startFault?_eq_none_iff {command : List Toml.Value} :
    startFault? machine command = none ↔ Starts machine command := by
  unfold startFault? Starts
  cases machine.takesAnything with
  | true => simp
  | false =>
    simp only [Bool.false_eq_true, if_false, false_or, List.findSome?_eq_none_iff,
      argumentFault?_eq_none_iff]

/-- A scan is the reading of an answer, if there is a program to give one and it can be started. -/
theorem scan_eq_ok_iff : (scan disk machine root request).2 = .ok issues ↔
    (∃ path, program disk machine request.scanner = .ok path ∧
      Starts machine (command path request (place disk root).2)) ∧
      readReply machine.stack (place disk root).1 machine.reply = .ok issues := by
  unfold scan
  cases program disk machine request.scanner with
  | error f => simp
  | ok path =>
    simp only [Except.ok.injEq, exists_eq_left', ← startFault?_eq_none_iff]
    cases startFault? machine (command path request (place disk root).2) with
    | some f => simp
    | none => simp

/-- What the external scanner finds is told by findings. -/
theorem exists_tells_of_scan (h : (scan disk machine root request).2 = .ok issues) :
    ∀ i ∈ issues, ∃ finding, Tells finding i := by
  intro i hi
  rcases readReply_eq_ok_iff.1 (scan_eq_ok_iff.1 h).2 with ⟨-, -, rfl⟩ | ⟨-, members, -, hread⟩
  · exact absurd hi List.not_mem_nil
  · obtain ⟨-, hissues, -⟩ := issuesIn_eq_ok_iff.1 hread
    obtain ⟨n, hn, rfl⟩ := List.getElem_of_mem hi
    have hall := List.forall₂_iff_get.1 (forall₂_of_issuesOf hissues)
    exact ⟨_, hall.2 n (hall.1 ▸ hn) hn⟩

/-- **No failure passes for a scan without findings, and no finding is lost or invented.** A program
that fails gives an error or issues, and the issues from a report are those that its results tell,
one for each and in their order. -/
theorem findings_kept_and_failures_reported (disk : Disk) (machine : Machine) (root : Path)
    (request : Request) :
    (machine.reply.code ≠ 0 → (scan disk machine root request).2 ≠ .ok []) ∧
      ∀ members issues, Json.read (Text.trim machine.reply.output.toList) = .ok (.obj members) →
        (scan disk machine root request).2 = .ok issues →
          List.Forall₂ Tells ((results members).filter isTelling) issues := by
  refine ⟨fun hcode h => ?_, fun members issues hread h => ?_⟩
  · rcases readReply_eq_ok_iff.1 (scan_eq_ok_iff.1 h).2 with ⟨-, hzero, -⟩ | ⟨-, members, -, h⟩
    · exact hcode hzero
    · obtain ⟨-, -, hdone⟩ := issuesIn_eq_ok_iff.1 h
      exact hdone.elim hcode fun hne => hne rfl
  · rcases readReply_eq_ok_iff.1 (scan_eq_ok_iff.1 h).2 with
      ⟨hblank, -, -⟩ | ⟨-, members', hread', h⟩
    · -- blank output is no report
      rw [hblank] at hread
      exact absurd hread (by simp [show Json.read [] = .error _ from rfl])
    · obtain rfl : members' = members := by simpa using hread'.symm.trans hread
      exact forall₂_of_issuesOf (issuesIn_eq_ok_iff.1 h).2.1

/-- A machine whose scanner fails, complains, and reports a number, a finding without a rule and
two that tell something. -/
def untidyMachine : Machine where
  reply := {
    output := "\x7b\"results\": [3, \x7b\"check_id\": \" a \", \"path\": \"x.py\"\x7d, " ++
      "\x7b\"check_id\": \"  \", \"path\": \"x.py\"\x7d, " ++
      "\x7b\"check_id\": \"b\", \"path\": \"y\", \"extra\": \x7b\"severity\": \"odd\"\x7d\x7d], " ++
      "\"errors\": [\x7b\"message\": \"no rules\"\x7d]\x7d"
    code := 2 }

/-- A scan on that machine. -/
def untidyScan : Except Fault (List Issue) :=
  (scan ⟨.folder [], ⟨.slash, []⟩⟩ untidyMachine ⟨.slash, []⟩ {}).2

/-- Two of the four results tell something, and they are not lost to the failure. -/
theorem untidyScan_keeps_findings :
    ∃ members issues,
      Json.read (Text.trim untidyMachine.reply.output.toList) = .ok (.obj members) ∧
      (results members).map isTelling = [false, true, false, true] ∧
      untidyScan = .ok issues ∧ issues.map (·.ruleId) = ["SG:a", "SG:b"] ∧
      List.Forall₂ Tells ((results members).filter isTelling) issues ∧ untidyScan ≠ .ok [] := by
  obtain ⟨hfailed, hkept⟩ := findings_kept_and_failures_reported ⟨.folder [], ⟨.slash, []⟩⟩
    untidyMachine ⟨.slash, []⟩ {}
  have hreport : ((Json.read (Text.trim untidyMachine.reply.output.toList)).toOption.bind
      Json.members?).map (fun members => (results members).map isTelling) =
        some [false, true, false, true] := by decide +kernel
  have hrules : untidyScan.toOption.map (fun issues => issues.map (·.ruleId)) =
      some ["SG:a", "SG:b"] := by decide +kernel
  obtain ⟨members, hread, htelling⟩ : ∃ members,
      Json.read (Text.trim untidyMachine.reply.output.toList) = .ok (.obj members) ∧
        (results members).map isTelling = [false, true, false, true] := by
    cases hread : Json.read (Text.trim untidyMachine.reply.output.toList) with
    | error e =>
      rw [hread] at hreport
      exact absurd hreport (by simp [Except.toOption])
    | ok report =>
      rw [hread] at hreport
      cases report with
      | obj members =>
        exact ⟨members, rfl, by simpa [Except.toOption, Json.members?] using hreport⟩
      | _ => exact absurd hreport (by simp [Except.toOption, Json.members?])
  obtain ⟨issues, hscan, hrules⟩ : ∃ issues, untidyScan = .ok issues ∧
      issues.map (·.ruleId) = ["SG:a", "SG:b"] := by
    cases hscan : untidyScan with
    | error f =>
      rw [hscan] at hrules
      exact absurd hrules (by simp [Except.toOption])
    | ok issues =>
      rw [hscan] at hrules
      exact ⟨issues, rfl, by simpa [Except.toOption] using hrules⟩
  exact ⟨members, issues, hread, htelling, hscan, hrules, hkept members issues hread hscan,
    hfailed (by decide)⟩

end CodeAudit.External
