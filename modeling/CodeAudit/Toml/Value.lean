import CodeAudit.Number.Quantity
import CodeAudit.Text.Quoted

/-!
# Values and tables of configuration files

The values that a TOML file can give a key. A value has a plain text, which is a string itself or
what its kind writes, and a shown form, in which strings stand in quotes.
-/

namespace CodeAudit.Toml

/-- A day. -/
structure Date where
  year : Nat
  month : Nat
  day : Nat
  deriving Repr, DecidableEq

/-- A time of day. -/
structure Time where
  hour : Nat
  minute : Nat
  second : Nat
  micros : Nat
  deriving Repr, DecidableEq

/-- A time on a day, with its distance from universal time in minutes if that is known. -/
structure DateTime where
  date : Date
  time : Time
  offset : Option Int
  deriving Repr, DecidableEq

/-- A value. -/
inductive Value where
  | str (s : String)
  | int (n : Int)
  | float (x : Float)
  | bool (b : Bool)
  | date (d : Date)
  | time (t : Time)
  | dateTime (t : DateTime)
  | array (items : List Value)
  | table (entries : List (String × Value))
  deriving Repr, Inhabited

/-! ## Times -/

/-- A number with zeros in front. -/
def padded (width n : Nat) : String :=
  let digits := toString n
  String.ofList (List.replicate (width - digits.length) '0') ++ digits

/-- A day as text. -/
def Date.text (d : Date) : String := s!"{padded 4 d.year}-{padded 2 d.month}-{padded 2 d.day}"

/-- A time of day as text; the fraction is left out if there is none. -/
def Time.text (t : Time) : String :=
  s!"{padded 2 t.hour}:{padded 2 t.minute}:{padded 2 t.second}" ++
    if t.micros = 0 then "" else s!".{padded 6 t.micros}"

/-- A distance from universal time as text. -/
def offsetText (minutes : Int) : String :=
  let n := minutes.natAbs
  (if minutes < 0 then "-" else "+") ++ s!"{padded 2 (n / 60)}:{padded 2 (n % 60)}"

/-- A time on a day as text, with a divider between the two. -/
def DateTime.text (t : DateTime) (divider : String) : String :=
  t.date.text ++ divider ++ t.time.text ++ (t.offset.map offsetText).getD ""

/-- Numbers in a list, with commas between. -/
def listed (numbers : List Nat) : String := ", ".intercalate (numbers.map toString)

/-- A day as it is shown. -/
def Date.shown (d : Date) : String := s!"datetime.date({listed [d.year, d.month, d.day]})"

/-- The parts of a time that are shown: seconds and fractions only if there are any. -/
def Time.parts (t : Time) : List Nat :=
  if t.micros ≠ 0 then [t.hour, t.minute, t.second, t.micros]
  else if t.second ≠ 0 then [t.hour, t.minute, t.second]
  else [t.hour, t.minute]

/-- A time of day as it is shown. -/
def Time.shown (t : Time) : String := s!"datetime.time({listed t.parts})"

/-- A distance from universal time as it is shown. -/
def offsetShown (minutes : Int) : String :=
  if minutes = 0 then "datetime.timezone.utc"
  else
    let delta := if minutes < 0 then s!"days=-1, seconds={86400 + minutes * 60}"
      else s!"seconds={minutes * 60}"
    s!"datetime.timezone(datetime.timedelta({delta}))"

/-- A time on a day as it is shown. -/
def DateTime.shown (t : DateTime) : String :=
  let parts := listed ([t.date.year, t.date.month, t.date.day] ++ t.time.parts)
  let offset := (t.offset.map fun m => ", tzinfo=" ++ offsetShown m).getD ""
  s!"datetime.datetime({parts}{offset})"

namespace Value

/-- The name of the kind of a value. -/
def kind : Value → String
  | str _ => "str"
  | int _ => "int"
  | float _ => "float"
  | bool _ => "bool"
  | date _ => "datetime.date"
  | time _ => "datetime.time"
  | dateTime _ => "datetime.datetime"
  | array _ => "list"
  | table _ => "dict"

mutual

/-- A value as it is shown. -/
def shown : Value → String
  | str s => Text.quotedString s
  | int n => toString n
  | float x => Number.shortest x
  | bool b => if b then "True" else "False"
  | date d => d.shown
  | time t => t.shown
  | dateTime t => t.shown
  | array items => "[" ++ shownItems items ++ "]"
  | table entries => "\x7b" ++ shownEntries entries ++ "\x7d"

/-- Items with commas between. -/
def shownItems : List Value → String
  | [] => ""
  | [v] => shown v
  | v :: rest => shown v ++ ", " ++ shownItems rest

/-- Entries with commas between. -/
def shownEntries : List (String × Value) → String
  | [] => ""
  | [(k, v)] => Text.quotedString k ++ ": " ++ shown v
  | (k, v) :: rest => Text.quotedString k ++ ": " ++ shown v ++ ", " ++ shownEntries rest

end

mutual

/-- Whether every whole number in a value can be written. -/
def isWritable : Value → Bool
  | int n => Number.isWritable n
  | array items => itemsWritable items
  | table entries => entriesWritable entries
  | _ => true

/-- Whether items can be written. -/
def itemsWritable : List Value → Bool
  | [] => true
  | v :: rest => isWritable v && itemsWritable rest

/-- Whether entries can be written. -/
def entriesWritable : List (String × Value) → Bool
  | [] => true
  | (_, v) :: rest => isWritable v && entriesWritable rest

end

/-- The plain text of a value. -/
def text : Value → String
  | str s => s
  | date d => d.text
  | time t => t.text
  | dateTime t => t.text " "
  | v => v.shown

/-- Whether a value counts as set: not empty, not zero and not false. -/
def isSet : Value → Bool
  | str s => s != ""
  | int n => n != 0
  | float x => !(x == 0.0)
  | bool b => b
  | array items => !items.isEmpty
  | table entries => !entries.isEmpty
  | _ => true

/-- A value as a quantity. -/
def quantity? : Value → Option Number.Quantity
  | int n => some (.whole n)
  | float x => some (.real x)
  | bool b => some (.truth b)
  | _ => none

/-- Whether two values that can be told apart are the same; numbers count by value. -/
def same (a b : Value) : Bool :=
  match a, b with
  | str s, str t => s == t
  | date d, date e => d == e
  | time t, time u => t == u
  | dateTime t, dateTime u => t == u
  | _, _ =>
    match a.quantity?, b.quantity? with
    | some p, some q => p.compare? q == some .eq
    | _, _ => false

end Value

/-! ## Tables under construction -/

/-- The parts of a dotted key. -/
abbrev Key := List String

/-- The entries of a table, in order. -/
abbrev Entries := List (String × Value)

/-- The entry of a name. -/
def valueOf? (t : Entries) (name : String) : Option Value := (t.find? (·.1 == name)).map (·.2)

/-- Sets an entry: at its place if it is there, else at the end. -/
def setEntry (t : Entries) (name : String) (v : Value) : Entries :=
  if t.any (·.1 == name) then t.map fun e => if e.1 == name then (name, v) else e
  else t ++ [(name, v)]

/-- Changes the table behind a key, which is created where it is missing. With `intoArrays` an array
stands for its last item. -/
def changeAt {ε : Type} (blocked : ε) (intoArrays : Bool) (change : Entries → Except ε Entries) :
    Key → Entries → Except ε Entries
  | [], t => change t
  | name :: key, t =>
    match (valueOf? t name).getD (.table []) with
    | .table inner => do
      let inner ← changeAt blocked intoArrays change key inner
      return setEntry t name (.table inner)
    | .array items =>
      match intoArrays, items.getLast? with
      | true, some (.table inner) => do
        let inner ← changeAt blocked intoArrays change key inner
        return setEntry t name (.array (items.dropLast ++ [.table inner]))
      | _, _ => .error blocked
    | _ => .error blocked

/-- What a key is marked as. -/
inductive Mark where
  | frozen
  | explicit
  deriving Repr, DecidableEq

/-- A mark on a key; a deep one holds for everything below. -/
structure Marked where
  key : Key
  mark : Mark
  deep : Bool
  deriving Repr, DecidableEq

/-- Whether a key has a mark, of its own or from above. -/
def isMarked (marks : List Marked) (key : Key) (mark : Mark) : Bool :=
  marks.any fun m =>
    m.mark == mark && (m.key == key || (m.deep && m.key.isPrefixOf key))

/-- Takes the marks from a key and everything below. -/
def clearMarks (marks : List Marked) (key : Key) : List Marked :=
  marks.filter fun m => !key.isPrefixOf m.key

/-- A key as it is shown. -/
def shownKey (key : Key) : String :=
  match key with
  | [name] => s!"({Text.quotedString name},)"
  | _ => "(" ++ ", ".intercalate (key.map Text.quotedString) ++ ")"

end CodeAudit.Toml
