import CodeAudit.Toml.Number

/-!
# Reading configuration files

A file is read statement by statement: a key with a value, a table that is opened, or an array that
gets another table. The first fault is reported with its place.
-/

namespace CodeAudit.Toml

open Text

/-- What is wrong with a file, and after how many characters. -/
structure Fault where
  reason : String
  position : Nat
  deriving Repr, DecidableEq

/-- Why a file could not be read: a fault in it, or a whole number with too many digits. -/
inductive ReadError where
  | fault (f : Fault)
  | tooManyDigits (digits : Nat)
  deriving Repr, DecidableEq

/-- The fault of a reason at a place. -/
def failAt {α : Type} (s : Spot) (reason : String) : Except ReadError α :=
  .error (.fault ⟨reason, s.position⟩)

/-- Blanks within a line. -/
def isGap (c : Char) : Bool := c == ' ' || c == '\t'

/-- Passes blanks within a line. -/
def skipGap (s : Spot) : Spot := s.skipWhile isGap

/-- A control character other than a tab. -/
def isControl (c : Char) : Bool := (c.toNat < 32 || c.toNat == 127) && c != '\t'

/-- A control character other than a tab or a line feed. -/
def isControlInLines (c : Char) : Bool := isControl c && c != '\n'

/-- The text before the first occurrence of a mark, if it occurs. -/
def textBefore? (mark : List Char) : List Char → Option (List Char)
  | [] => none
  | c :: rest =>
    if mark.isPrefixOf (c :: rest) then some [] else (textBefore? mark rest).map (c :: ·)

/-- The place of the first character that passes a test, with that character. -/
def firstBad? (s : Spot) (text : List Char) (test : Char → Bool) : Option (Spot × Char) :=
  let good := (text.takeWhile fun c => !test c).length
  (text.drop good).head?.map fun c => (s.skip good, c)

/-- The report of a character that may not stand at a place. -/
def badCharacter {α : Type} (s : Spot) (c : Char) : Except ReadError α :=
  failAt s s!"Found invalid character {String.ofList (quoted [c])}"

/-- Passes a comment, if one follows. -/
def skipComment (s : Spot) : Except ReadError Spot :=
  if s.next? = some '#' then
    let s := s.skip 1
    let text := s.rest.takeWhile (· ≠ '\n')
    match firstBad? s text isControl with
    | some (bad, c) => badCharacter bad c
    | none => .ok (s.skip text.length)
  else .ok s

/-- Passes blanks, line ends and comments. Each round passes something. -/
def skipLines : Nat → Spot → Except ReadError Spot
  | 0, s => .ok s
  | fuel + 1, s => do
    let t ← skipComment (s.skipWhile fun c => isGap c || c == '\n')
    if t.position = s.position then return s else skipLines fuel t

/-- Passes blanks, line ends and comments. -/
def skipFiller (s : Spot) : Except ReadError Spot := skipLines (s.rest.length + 1) s

/-! ## Strings -/

/-- Reads a literal up to a mark; `test` tells which characters may not stand in it. -/
def readLiteral (mark : String) (test : Char → Bool) (s : Spot) :
    Except ReadError (String × Spot) :=
  match textBefore? mark.toList s.rest with
  | none => failAt (s.skip s.rest.length) s!"Expected {quotedString mark}"
  | some text =>
    match firstBad? s text test with
    | some (bad, c) => badCharacter bad c
    | none => .ok (String.ofList text, s.skip (text.length + mark.length))

/-- Reads the digits of a character number. -/
def readHexChar (count : Nat) (s : Spot) : Except ReadError (List Char × Spot) :=
  let digits := s.rest.take count
  match digits.mapM hexDigit? with
  | none => failAt s "Invalid hex value"
  | some values =>
    if values.length < count then failAt s "Invalid hex value"
    else
      let n := values.foldl (fun n d => 16 * n + d) 0
      let s := s.skip count
      if n < 0xD800 ∨ (0xE000 ≤ n ∧ n < 0x110000) then .ok ([Char.ofNat n], s)
      else failAt s "Escaped character is not a Unicode scalar value"

/-- The character of an escape letter. -/
def escape? (c : Char) : Option Char :=
  match c with
  | 'b' => some '\x08'
  | 't' => some '\t'
  | 'n' => some '\n'
  | 'f' => some '\x0c'
  | 'r' => some '\r'
  | '"' => some '"'
  | '\\' => some '\\'
  | _ => none

/-- The report of a backslash that starts no escape. -/
def badEscape {α : Type} (s : Spot) : Except ReadError α := failAt s "Unescaped '\\' in a string"

/-- Reads an escape, from its backslash on. In a string of several lines an escaped line end takes
the blanks after it away. -/
def readEscape (lines : Bool) (s : Spot) : Except ReadError (List Char × Spot) :=
  let after := s.skip 2
  match (s.rest.drop 1).head? with
  | none => badEscape after
  | some c =>
    if lines ∧ c = '\n' then .ok ([], after.skipWhile fun c => isGap c || c == '\n')
    else if lines ∧ isGap c then
      let t := skipGap after
      match t.next? with
      | none => .ok ([], t)
      | some '\n' => .ok ([], t.skipWhile fun c => isGap c || c == '\n')
      | some _ => badEscape t
    else if c = 'u' then readHexChar 4 after
    else if c = 'U' then readHexChar 8 after
    else match escape? c with
      | some d => .ok ([d], after)
      | none => badEscape after

/-- Reads a string in double quotes from behind the opening ones on, with the text so far in
reverse. Each step passes a character. -/
def readQuoted (lines : Bool) : Nat → Spot → List Char → Except ReadError (String × Spot)
  | 0, s, _ => failAt s "Unterminated string"
  | fuel + 1, s, read =>
    match s.rest with
    | [] => failAt s "Unterminated string"
    | '"' :: _ =>
      if !lines then .ok (String.ofList read.reverse, s.skip 1)
      else if s.sees "\"\"\"" then .ok (String.ofList read.reverse, s.skip 3)
      else readQuoted lines fuel (s.skip 1) ('"' :: read)
    | '\\' :: _ => do
      let (text, s) ← readEscape lines s
      readQuoted lines fuel s (text.reverse ++ read)
    | c :: _ =>
      if (if lines then isControlInLines c else isControl c) then
        failAt s s!"Illegal character {String.ofList (quoted [c])}"
      else readQuoted lines fuel (s.skip 1) (c :: read)

/-- Adds up to two quotes that follow the end of a string of several lines. -/
def addQuotes (quote : Char) (text : String) (s : Spot) : String × Spot :=
  let extra := min 2 (s.rest.takeWhile (· == quote)).length
  (text ++ String.ofList (List.replicate extra quote), s.skip extra)

/-- Passes the line end that may follow the opening of a string of several lines. -/
def skipFirstLineEnd (s : Spot) : Spot := if s.next? = some '\n' then s.skip 1 else s

/-- Reads a string in double quotes. -/
def readDouble (s : Spot) : Except ReadError (String × Spot) :=
  if s.sees "\"\"\"" then do
    let s := skipFirstLineEnd (s.skip 3)
    let (text, s) ← readQuoted true (s.rest.length + 1) s []
    return addQuotes '"' text s
  else readQuoted false (s.rest.length + 1) (s.skip 1) []

/-- Reads a string in single quotes. -/
def readSingle (s : Spot) : Except ReadError (String × Spot) :=
  if s.sees "'''" then do
    let (text, s) ← readLiteral "'''" isControlInLines (skipFirstLineEnd (s.skip 3))
    return addQuotes singleQuote text s
  else readLiteral "'" isControl (s.skip 1)

/-! ## Keys -/

/-- A character of a key without quotes. -/
def isBareKeyChar (c : Char) : Bool := c.isAlphanum || c == '-' || c == '_'

/-- Reads one part of a key. -/
def readKeyPart (s : Spot) : Except ReadError (String × Spot) :=
  match s.next? with
  | some c =>
    if isBareKeyChar c then
      let text := s.rest.takeWhile isBareKeyChar
      .ok (String.ofList text, s.skip text.length)
    else if c = singleQuote then readLiteral "'" isControl (s.skip 1)
    else if c = '"' then readQuoted false (s.rest.length + 1) (s.skip 1) []
    else failAt s "Invalid initial character for a key part"
  | none => failAt s "Invalid initial character for a key part"

/-- Reads the parts of a key that follow dots. -/
def readKeyRest : Nat → Spot → Key → Except ReadError (Key × Spot)
  | 0, s, key => .ok (key, s)
  | fuel + 1, s, key =>
    if s.next? = some '.' then do
      let (part, s) ← readKeyPart (skipGap (s.skip 1))
      readKeyRest fuel (skipGap s) (key ++ [part])
    else .ok (key, s)

/-- Reads a key. -/
def readKey (s : Spot) : Except ReadError (Key × Spot) := do
  let (part, s) ← readKeyPart s
  readKeyRest (s.rest.length + 1) (skipGap s) [part]

/-! ## Values -/

/-- Words that stand for numbers. -/
def wordNumbers : List (String × Float) :=
  [("inf", Number.infinity), ("nan", Number.notANumber), ("-inf", -Number.infinity),
   ("+inf", Number.infinity), ("-nan", Number.notANumber), ("+nan", Number.notANumber)]

/-- Reads a time, a number or a word that stands for one. -/
def readScalar (s : Spot) : Except ReadError (Value × Spot) :=
  match dateTimePattern.matchStart s.rest with
  | some m =>
    match dateTimeOf m with
    | some v => .ok (v, s.skip m.stop)
    | none => failAt s "Invalid date or datetime"
  | none =>
    match timePattern.matchStart s.rest with
    | some m => .ok (.time (timeOf m), s.skip m.stop)
    | none =>
      match numberPattern.matchStart s.rest with
      | some m =>
        match numberOf m (s.rest.take m.stop) with
        | .ok v => .ok (v, s.skip m.stop)
        | .error digits => .error (.tooManyDigits digits)
      | none =>
        match wordNumbers.find? fun w => s.sees w.1 with
        | some (word, x) => .ok (.float x, s.skip word.length)
        | none => failAt s "Invalid value"

mutual

/-- Reads a value. -/
def readValue : Nat → Spot → Except ReadError (Value × Spot)
  | 0, s => failAt s "Invalid value"
  | fuel + 1, s =>
    match s.next? with
    | none => failAt s "Invalid value"
    | some c =>
      if c = '"' then do
        let (text, s) ← readDouble s
        return (.str text, s)
      else if c = singleQuote then do
        let (text, s) ← readSingle s
        return (.str text, s)
      else if s.sees "true" then .ok (.bool true, s.skip 4)
      else if s.sees "false" then .ok (.bool false, s.skip 5)
      else if c = '[' then do
        let s ← skipFiller (s.skip 1)
        if s.next? = some ']' then return (.array [], s.skip 1)
        readItems fuel s []
      else if c.toNat = 0x7b then
        let s := skipGap (s.skip 1)
        if s.next?.map Char.toNat = some 0x7d then .ok (.table [], s.skip 1)
        else readInline fuel s [] []
      else readScalar s

/-- Reads the items of an array, with those already read in reverse. -/
def readItems : Nat → Spot → List Value → Except ReadError (Value × Spot)
  | 0, s, _ => failAt s "Unclosed array"
  | fuel + 1, s, items => do
    let (v, s) ← readValue fuel s
    let items := v :: items
    let s ← skipFiller s
    match s.next? with
    | some ']' => return (.array items.reverse, s.skip 1)
    | some ',' =>
      let s ← skipFiller (s.skip 1)
      if s.next? = some ']' then return (.array items.reverse, s.skip 1)
      readItems fuel s items
    | _ => failAt s "Unclosed array"

/-- Reads a key with a value. -/
def readPair : Nat → Spot → Except ReadError ((Key × Value) × Spot)
  | 0, s => failAt s "Invalid value"
  | fuel + 1, s => do
    let (key, s) ← readKey s
    if s.next? ≠ some '=' then failAt s "Expected '=' after a key in a key/value pair"
    else
      let (v, s) ← readValue fuel (skipGap (s.skip 1))
      return ((key, v), s)

/-- Reads the entries of a table in braces. -/
def readInline : Nat → Spot → Entries → List Marked → Except ReadError (Value × Spot)
  | 0, s, _, _ => failAt s "Unclosed inline table"
  | fuel + 1, s, t, marks => do
    let ((key, v), s) ← readPair fuel s
    let overwrite := ReadError.fault ⟨"Cannot overwrite a value", s.position⟩
    let name := key.getLast?.getD ""
    if isMarked marks key .frozen then
      failAt s s!"Cannot mutate immutable namespace {shownKey key}"
    else
      let add := fun (inner : Entries) =>
        if (valueOf? inner name).isSome then
          failAt s s!"Duplicate inline table key {quotedString name}"
        else .ok (inner ++ [(name, v)])
      let t ← changeAt overwrite false add key.dropLast t
      let s := skipGap s
      match s.next? with
      | some ',' =>
        let marks := match v with
          | .table _ | .array _ => ⟨key, .frozen, true⟩ :: marks
          | _ => marks
        readInline fuel (skipGap (s.skip 1)) t marks
      | some c =>
        if c.toNat = 0x7d then return (.table t, s.skip 1)
        else failAt s "Unclosed inline table"
      | none => failAt s "Unclosed inline table"

end

/-! ## Statements -/

/-- What has been read so far: the tables, their marks, the marks that the next table brings into
force, and the key of the table that is open. -/
structure State where
  tables : Entries := []
  marks : List Marked := []
  pending : List Key := []
  header : Key := []
  deriving Repr

/-- The beginnings of a key, from one part on, without the whole key. -/
def beginnings (key : Key) : List Key := (List.range (key.length - 1)).map fun i => key.take (i + 1)

/-- Reads a key with a value into the open table. -/
def readAssignment (fuel : Nat) (st : State) (s : Spot) : Except ReadError (State × Spot) := do
  let ((key, v), s) ← readPair fuel s
  let name := key.getLast?.getD ""
  let parent := st.header ++ key.dropLast
  let within := (beginnings key).map (st.header ++ ·)
  match within.find? fun k => isMarked st.marks k .explicit with
  | some k => failAt s s!"Cannot redefine namespace {shownKey k}"
  | none =>
    if isMarked st.marks parent .frozen then
      failAt s s!"Cannot mutate immutable namespace {shownKey parent}"
    else
      let overwrite := ReadError.fault ⟨"Cannot overwrite a value", s.position⟩
      let add := fun (inner : Entries) =>
        if (valueOf? inner name).isSome then .error overwrite else .ok (inner ++ [(name, v)])
      let tables ← changeAt overwrite true add parent st.tables
      let marks := match v with
        | .table _ | .array _ => ⟨st.header ++ key, .frozen, true⟩ :: st.marks
        | _ => st.marks
      return ({ st with tables, marks, pending := st.pending ++ within }, s)

/-- Brings the pending marks into force. -/
def State.settle (st : State) : State :=
  { st with
    marks := st.pending.map (⟨·, .explicit, false⟩) ++ st.marks
    pending := [] }

/-- Opens a table. -/
def readTable (st : State) (s : Spot) : Except ReadError (State × Spot) := do
  let (key, s) ← readKey (skipGap (s.skip 1))
  if isMarked st.marks key .explicit || isMarked st.marks key .frozen then
    failAt s s!"Cannot declare {shownKey key} twice"
  else
    let overwrite := ReadError.fault ⟨"Cannot overwrite a value", s.position⟩
    let tables ← changeAt overwrite true .ok key st.tables
    if s.next? ≠ some ']' then failAt s "Expected ']' at the end of a table declaration"
    else
      let marks := ⟨key, .explicit, false⟩ :: st.marks
      return ({ st with tables, marks, header := key }, s.skip 1)

/-- Adds a table to an array and opens it. -/
def readTableItem (st : State) (s : Spot) : Except ReadError (State × Spot) := do
  let (key, s) ← readKey (skipGap (s.skip 2))
  if isMarked st.marks key .frozen then
    failAt s s!"Cannot mutate immutable namespace {shownKey key}"
  else
    let overwrite := ReadError.fault ⟨"Cannot overwrite a value", s.position⟩
    let name := key.getLast?.getD ""
    let add := fun (inner : Entries) =>
      match valueOf? inner name with
      | none => .ok (inner ++ [(name, .array [.table []])])
      | some (.array items) => .ok (setEntry inner name (.array (items ++ [.table []])))
      | some _ => .error overwrite
    let tables ← changeAt overwrite true add key.dropLast st.tables
    if !s.sees "]]" then failAt s "Expected ']]' at the end of an array declaration"
    else
      let marks := ⟨key, .explicit, false⟩ :: clearMarks st.marks key
      return ({ st with tables, marks, header := key }, s.skip 2)

/-- Whether a key may start with a character. -/
def startsKey (c : Char) : Bool := isBareKeyChar c || c == '"' || c == singleQuote

/-- Reads one statement, unless there is only a comment. -/
def readStatement (fuel : Nat) (st : State) (s : Spot) (c : Char) :
    Except ReadError (State × Spot) :=
  if startsKey c then readAssignment fuel st s
  else if c = '[' then
    if s.sees "[[" then readTableItem st.settle s else readTable st.settle s
  else if c = '#' then .ok (st, s)
  else failAt s "Invalid statement"

/-- Reads the statements of a file. Each round passes a line. -/
def readStatements (fuel : Nat) : Nat → State → Spot → Except ReadError Entries
  | 0, st, _ => .ok st.tables
  | rounds + 1, st, s =>
    let s := skipGap s
    match s.next? with
    | none => .ok st.tables
    | some '\n' => readStatements fuel rounds st (s.skip 1)
    | some c => do
      let (st, s) ← readStatement fuel st s c
      let s ← skipComment (skipGap s)
      match s.next? with
      | none => return st.tables
      | some '\n' => readStatements fuel rounds st (s.skip 1)
      | some _ => failAt s "Expected newline or end of document after a statement"

/-- A text with line feeds alone where it had carriage returns before them. -/
def plainLines : List Char → List Char
  | [] => []
  | '\r' :: '\n' :: rest => '\n' :: plainLines rest
  | c :: rest => c :: plainLines rest

/-- **Reads a configuration file.** -/
def read (text : List Char) : Except ReadError Entries :=
  let text := plainLines text
  readStatements (2 * text.length + 2) (text.length + 1) {} ⟨text, 0⟩

/-- The report of a fault in a text. -/
def Fault.message (f : Fault) (text : List Char) : String :=
  let text := plainLines text
  let place :=
    if text.length ≤ f.position then "end of document"
    else
      let passed := text.take f.position
      let line := passed.count '\n' + 1
      let column := (passed.reverse.takeWhile (· ≠ '\n')).length + 1
      s!"line {line}, column {column}"
  s!"{f.reason} (at {place})"

/-- Why a file could not be read. -/
def ReadError.message (e : ReadError) (text : List Char) : String :=
  match e with
  | .fault f => f.message text
  | .tooManyDigits digits => Number.tooLongMessage digits

end CodeAudit.Toml
