import CodeAudit.Path
import CodeAudit.Toml.Value

/-!
# Using values

A setting may hold any value, and shows only when it is used whether the value will do. Each use
gives what it needs, or says how the value is misused.
-/

namespace CodeAudit.Toml

/-- A value in a place where it will not do. -/
inductive Misuse where
  | asTable (v : Value)
  | asList (v : Value)
  | asNumber (v : Value)
  | asNumeral (text : String) (fault : Number.IntFault)
  | asWhole (fault : Number.WholeFault)
  /-- A value that cannot be told from others at once. -/
  | asMember (v : Value)
  | asLimit (v : Value)
  | asEnding (v : Value)
  | asPath (v : Value)
  /-- A value with a whole number that cannot be written. -/
  | asText (v : Value)

/-- The name of a value's kind without what it belongs to. -/
def Value.shortKind : Value → String
  | .date _ => "date"
  | .time _ => "time"
  | .dateTime _ => "datetime"
  | v => v.kind

/-- The text of a misuse. -/
def Misuse.message : Misuse → String
  | asTable v => s!"'{v.kind}' object has no attribute 'get'"
  | asList v => s!"'{v.kind}' object is not iterable"
  | asNumber v =>
    s!"int() argument must be a string, a bytes-like object or a real number, not '{v.kind}'"
  | asNumeral text fault => fault.message (Text.quotedString text)
  | asWhole fault => fault.message
  | asMember v => s!"unhashable type: '{v.kind}'"
  | asLimit v => s!"'<' not supported between instances of '{v.kind}' and 'int'"
  | asEnding v => s!"'{v.kind}' object has no attribute 'startswith'"
  | asPath v => s!"expected str, bytes or os.PathLike object, not {v.shortKind}"
  | asText _ => Number.unwritableMessage

namespace Value

/-- The entries of a table. -/
def entries : Value → Except Misuse Entries
  | table entries => .ok entries
  | v => .error (.asTable v)

/-- The members of a value: the items of an array, the names in a table, the characters of a
string. -/
def members : Value → Except Misuse (List Value)
  | array items => .ok items
  | table entries => .ok (entries.map fun e => str e.1)
  | str s => .ok (s.toList.map fun c => str (String.singleton c))
  | v => .error (.asList v)

/-- The whole number that a value stands for. -/
def whole : Value → Except Misuse Int
  | int n => .ok n
  | bool b => .ok (Number.truthValue b)
  | float x => (Number.wholePart x).mapError .asWhole
  | str s => (Number.readInt s.toList).mapError (.asNumeral s)
  | v => .error (.asNumber v)

/-- The quantity that a value is. -/
def limit (v : Value) : Except Misuse Number.Quantity :=
  match v.quantity? with
  | some q => .ok q
  | none => .error (.asLimit v)

/-- The path that a value names. -/
def path : Value → Except Misuse Path
  | str s => .ok (Path.ofString s)
  | v => .error (.asPath v)

/-- The text that a value is made into. -/
def written (v : Value) : Except Misuse String :=
  if v.isWritable then .ok v.text else .error (.asText v)

/-- A value that can be looked up among others. -/
def single : Value → Except Misuse Value
  | array items => .error (.asMember (array items))
  | table entries => .error (.asMember (table entries))
  | v => .ok v

/-- Keeps of values that are the same the first. -/
def distinct (values : List Value) : List Value :=
  values.foldl (fun kept v => if kept.any (·.same v) then kept else kept ++ [v]) []

end Value

end CodeAudit.Toml
