import CodeAudit.Json.Reader
import CodeAudit.Json.Writer
import CodeAudit.Number.Quantity
import CodeAudit.Path

/-!
# The coverage of a round

Each round measures how much of the code its benchmarks reach. The figures come from a JSON report,
with totals and a part for each file, and are shown as a table: the files that are covered least
come first, and of those the larger ones.
-/

namespace CodeAudit.Rounds

/-! ## Values from other programs -/

/-- A value in a place where it will not do. -/
inductive Misuse where
  /-- Something is asked of a value that it does not have. -/
  | lacks (j : Json) (wanted : String)
  | noLength (j : Json)
  | notReal (j : Json)
  | badReal (text : String)
  | tooLarge
  | notWhole (j : Json)
  | badWhole (text : String) (fault : Number.IntFault)
  | noWhole (fault : Number.WholeFault)

/-- The name of the kind of a misuse. -/
def Misuse.kind : Misuse → String
  | lacks _ _ => "AttributeError"
  | noLength _ | notReal _ | notWhole _ => "TypeError"
  | badReal _ | badWhole _ _ | noWhole .notANumber => "ValueError"
  | tooLarge | noWhole .infinite => "OverflowError"

/-- The text of a misuse. -/
def Misuse.message : Misuse → String
  | lacks j wanted => s!"'{j.kind}' object has no attribute '{wanted}'"
  | noLength j => s!"object of type '{j.kind}' has no len()"
  | notReal j => s!"float() argument must be a string or a real number, not '{j.kind}'"
  | badReal text => s!"could not convert string to float: {Text.quotedString text}"
  | tooLarge => "int too large to convert to float"
  | notWhole j =>
    s!"int() argument must be a string, a bytes-like object or a real number, not '{j.kind}'"
  | badWhole text fault => fault.message (Text.quotedString text)
  | noWhole fault => fault.message

/-- Whether a value counts as set: not empty, not zero and not false. -/
def isSet : Json → Bool
  | .null => false
  | .bool b => b
  | .int n => n != 0
  | .float x => !(x == 0.0)
  | .str s => s != ""
  | .arr items => !items.isEmpty
  | .obj members => !members.isEmpty

/-- The member of an object, if it is set. -/
def setMember? (members : List (String × Json)) (name : String) : Option Json :=
  (Json.member? members name).filter isSet

/-- The members of an object that is asked for something. -/
def membersFor (wanted : String) : Json → Except Misuse (List (String × Json))
  | .obj members => .ok members
  | j => .error (.lacks j wanted)

/-- The members of a member that is an object; none if it is not set. -/
def membersAt (wanted : String) (members : List (String × Json)) (name : String) :
    Except Misuse (List (String × Json)) :=
  match setMember? members name with
  | some j => membersFor wanted j
  | none => .ok []

/-- The double that a value stands for. -/
def real : Json → Except Misuse Float
  | .float x => .ok x
  | .int n => match Number.ofInt? n with
    | some x => .ok x
    | none => .error .tooLarge
  | .bool b => .ok (if b then 1.0 else 0.0)
  | .str s => match Number.readFloat? s.toList with
    | some x => .ok x
    | none => .error (.badReal s)
  | j => .error (.notReal j)

/-- The whole number that a value stands for. -/
def whole : Json → Except Misuse Int
  | .int n => .ok n
  | .bool b => .ok (Number.truthValue b)
  | .float x => (Number.wholePart x).mapError .noWhole
  | .str s => (Number.readInt s.toList).mapError (.badWhole s)
  | j => .error (.notWhole j)

/-- The double in a member; zero if it is missing. -/
def realAt (members : List (String × Json)) (name : String) : Except Misuse Float :=
  match Json.member? members name with
  | some j => real j
  | none => .ok 0.0

/-- The whole number in a member; zero if it is missing. -/
def wholeAt (members : List (String × Json)) (name : String) : Except Misuse Int :=
  match Json.member? members name with
  | some j => whole j
  | none => .ok 0

/-! ## The coverage of a round -/

/-- The coverage of one file. -/
structure FileCoverage where
  name : String
  statements : Int
  missed : Int
  percent : Float
  /-- The lines that are not reached. -/
  lines : List Json

/-- The coverage of a round. -/
structure RoundCoverage where
  percent : Float
  covered : Int
  statements : Int
  /-- The benchmarks that failed; an object if all is well. -/
  benchErrors : Json
  files : List FileCoverage

/-- The folder in which rounds run. -/
def home : Path := Path.ofString "/repo"

/-- A path seen from a folder: the steps up to what they share, and from there down. -/
def seenFrom (base p : Path) : String :=
  let names := Path.resolveParts [] p.parts
  let shared := ((names.zip base.parts).takeWhile fun (a, b) => a == b).length
  Path.toString ⟨.relative,
    List.replicate (base.parts.length - shared) ".." ++ names.drop shared⟩

/-- The name of a file in the table. -/
def fileName (text : String) : String :=
  let p := Path.ofString text
  if p.isAbsolute then seenFrom home p else text

/-- The coverage of a file. -/
def fileCoverage (path : String) (j : Json) : Except Misuse FileCoverage := do
  let members ← membersFor "get" j
  let summary ← membersAt "get" members "summary"
  return {
    name := fileName path
    statements := ← wholeAt summary "num_statements"
    missed := ← wholeAt summary "missing_lines"
    percent := ← realAt summary "percent_covered"
    lines := ((setMember? members "missing_lines").bind Json.items?).getD [] }

/-- The coverage in a report. -/
def roundCoverage (report : Json) : Except Misuse RoundCoverage := do
  let members ← membersFor "get" report
  let totals ← membersAt "get" members "totals"
  let percent ← realAt totals "percent_covered"
  let covered ← wholeAt totals "covered_lines"
  let statements ← wholeAt totals "num_statements"
  let notes ← membersAt "get" members "meta"
  let files ← membersAt "items" members "files"
  let files ← files.mapM fun (path, j) => fileCoverage path j
  return {
    percent, covered, statements, files
    benchErrors := (setMember? notes "_pti_bench_errors").getD (.obj []) }

/-! ## The table -/

/-- Whether a file may stand before another. -/
def FileCoverage.inOrder (a b : FileCoverage) : Bool :=
  if a.percent == b.percent then b.statements ≤ a.statements else a.percent < b.percent

/-- The greatest number of files in the table. -/
def maxTableRows : Nat := 120

/-- The greatest width of a name in the table. -/
def maxNameWidth : Nat := 60

/-- The greatest number of lines that are listed for a file. -/
def maxListedLines : Nat := 12

/-- The lines that are not reached, as far as they are listed. -/
def linesText (lines : List Json) : String :=
  ",".intercalate ((lines.take maxListedLines).map Json.compact) ++
    if maxListedLines < lines.length then "…" else ""

/-- A row of the table up to the percentage. -/
def rowText (width : Nat) (name : String) (statements missed : Int) (percent : Float) : String :=
  Text.padEnd width (String.ofList (name.toList.take width)) ++ "  " ++
    Text.padStart 5 (toString statements) ++ "  " ++ Text.padStart 4 (toString missed) ++ "  " ++
    Text.padStart 4 (Number.fixed 0 percent) ++ "%"

/-- **The table**, line by line. -/
def RoundCoverage.table (c : RoundCoverage) : List String :=
  let rows := (c.files.mergeSort FileCoverage.inOrder).take maxTableRows
  let width := min maxNameWidth ((rows.map (·.name.length)).foldl max 4)
  let rule := String.ofList (List.replicate (width + 42) '-')
  let total := Text.padEnd width "TOTAL" ++ "  " ++ Text.padStart 5 (toString c.statements) ++
    "  " ++ Text.padStart 4 (toString (c.statements - c.covered)) ++ "  " ++
    Text.padStart 4 (Number.fixed 0 c.percent) ++ "%"
  [Text.padEnd width "Name" ++ "  Stmts  Miss  Cover  Missing", rule] ++
    rows.map (fun r => rowText width r.name r.statements r.missed r.percent ++ "  " ++
      linesText r.lines) ++
    [rule, total]

end CodeAudit.Rounds
