import CodeAudit.Json.Basic
import CodeAudit.Number.Read
import CodeAudit.Number.Shortest
import CodeAudit.Text.Quoted

/-!
# Writing JSON

Everything outside printable ASCII is escaped, characters beyond the basic plane as pairs. Doubles
are written with the fewest digits that read back. A value is written on one line or with two
spaces of indentation for each level.
-/

namespace CodeAudit.Json

/-- An escape of one code unit. -/
def unitEscape (n : Nat) : List Char := '\\' :: 'u' :: Text.paddedHex 4 n

/-- How a character stands in a string. -/
def escapeChar (c : Char) : List Char :=
  match c with
  | '"' => ['\\', '"']
  | '\\' => ['\\', '\\']
  | '\n' => ['\\', 'n']
  | '\r' => ['\\', 'r']
  | '\t' => ['\\', 't']
  | '\x0c' => ['\\', 'f']
  | '\x08' => ['\\', 'b']
  | _ =>
    let n := c.toNat
    if 0x20 ≤ n ∧ n < 0x7f then [c]
    else if n < 0x10000 then unitEscape n
    else
      let m := n - 0x10000
      unitEscape (0xD800 + m / 0x400) ++ unitEscape (0xDC00 + m % 0x400)

/-- A string in quotes. -/
def quote (s : String) : String := String.ofList ('"' :: s.toList.flatMap escapeChar ++ ['"'])

/-- A double. -/
def floatText (x : Float) : String :=
  match Number.shortest x with
  | "nan" => "NaN"
  | "inf" => "Infinity"
  | "-inf" => "-Infinity"
  | text => text

/-- The text of a value without parts. -/
def scalarText : Json → String
  | null => "null"
  | bool b => if b then "true" else "false"
  | int n => toString n
  | float x => floatText x
  | str s => quote s
  | arr _ => "[]"
  | obj _ => "\x7b\x7d"

mutual

/-- A value on one line. -/
def compact : Json → String
  | arr items => "[" ++ compactItems items ++ "]"
  | obj members => "\x7b" ++ compactMembers members ++ "\x7d"
  | null => scalarText null
  | bool b => scalarText (bool b)
  | int n => scalarText (int n)
  | float x => scalarText (float x)
  | str s => scalarText (str s)

/-- Items with commas between. -/
def compactItems : List Json → String
  | [] => ""
  | [j] => compact j
  | j :: rest => compact j ++ ", " ++ compactItems rest

/-- Members with commas between. -/
def compactMembers : List (String × Json) → String
  | [] => ""
  | [(name, j)] => quote name ++ ": " ++ compact j
  | (name, j) :: rest => quote name ++ ": " ++ compact j ++ ", " ++ compactMembers rest

end

mutual

/-- Whether every whole number in a value can be written. -/
def isWritable : Json → Bool
  | int n => Number.isWritable n
  | arr items => itemsWritable items
  | obj members => membersWritable members
  | null | bool _ | float _ | str _ => true

/-- Whether items can be written. -/
def itemsWritable : List Json → Bool
  | [] => true
  | j :: rest => isWritable j && itemsWritable rest

/-- Whether members can be written. -/
def membersWritable : List (String × Json) → Bool
  | [] => true
  | (_, j) :: rest => isWritable j && membersWritable rest

end

/-- A line break and the indentation of a level. -/
def newLine (level : Nat) : String := "\n" ++ String.ofList (List.replicate (2 * level) ' ')

mutual

/-- A value at a level of indentation. -/
def indentedAt (level : Nat) : Json → String
  | arr [] => "[]"
  | arr (j :: rest) =>
    "[" ++ newLine (level + 1) ++ indentedItems (level + 1) (j :: rest) ++ newLine level ++ "]"
  | obj [] => "\x7b\x7d"
  | obj (m :: rest) =>
    "\x7b" ++ newLine (level + 1) ++ indentedMembers (level + 1) (m :: rest) ++ newLine level
      ++ "\x7d"
  | null => scalarText null
  | bool b => scalarText (bool b)
  | int n => scalarText (int n)
  | float x => scalarText (float x)
  | str s => scalarText (str s)

/-- Items on lines of their own. -/
def indentedItems (level : Nat) : List Json → String
  | [] => ""
  | [j] => indentedAt level j
  | j :: rest => indentedAt level j ++ "," ++ newLine level ++ indentedItems level rest

/-- Members on lines of their own. -/
def indentedMembers (level : Nat) : List (String × Json) → String
  | [] => ""
  | [(name, j)] => quote name ++ ": " ++ indentedAt level j
  | (name, j) :: rest =>
    quote name ++ ": " ++ indentedAt level j ++ "," ++ newLine level ++ indentedMembers level rest

end

/-- **A value with indentation.** -/
def indented (j : Json) : String := indentedAt 0 j

end CodeAudit.Json
