/-!
# Lines, places and blanks

A text is read with every line end turned into a line feed, and cut into lines at line feeds and at
the other characters that end a line of plain text. The two notions differ: `splitLines` also cuts
at form feeds, the information separators and the Unicode separators, which `unifyNewlines` keeps.
The columns of a table are lines of texts that are filled up with blanks to one width.
-/

namespace CodeAudit.Text

/-- Turns `\r\n` and a lone `\r` into `\n`. -/
def unifyNewlines : List Char → List Char
  | [] => []
  | '\r' :: '\n' :: rest => '\n' :: unifyNewlines rest
  | c :: rest => (if c = '\r' then '\n' else c) :: unifyNewlines rest

/-- The characters that end a line. -/
def isLineEnd (c : Char) : Bool :=
  let n := c.toNat
  (10 ≤ n && n ≤ 13) || (0x1c ≤ n && n ≤ 0x1e) || n == 0x85 || n == 0x2028 || n == 0x2029

/-- Cuts a text at its line ends, with the current line held in reverse. A text that ends with a
line end has no further line. -/
def splitLinesFrom (line : List Char) : List Char → List (List Char)
  | [] => if line.isEmpty then [] else [line.reverse]
  | '\r' :: '\n' :: rest => line.reverse :: splitLinesFrom [] rest
  | c :: rest =>
    if isLineEnd c then line.reverse :: splitLinesFrom [] rest
    else splitLinesFrom (c :: line) rest

/-- The lines of a text, without their ends. -/
def splitLines (text : List Char) : List (List Char) := splitLinesFrom [] text

/-- A text with blanks behind it up to a width. -/
def padEnd (width : Nat) (text : String) : String :=
  text ++ String.ofList (List.replicate (width - text.length) ' ')

/-- A text with blanks before it up to a width. -/
def padStart (width : Nat) (text : String) : String :=
  String.ofList (List.replicate (width - text.length) ' ') ++ text

/-! ## Places in a text -/

/-- A place in a text: what follows, and how many characters are passed. -/
structure Spot where
  rest : List Char
  position : Nat
  deriving Repr

namespace Spot

/-- The place a number of characters on. -/
def skip (s : Spot) (n : Nat) : Spot := ⟨s.rest.drop n, s.position + n⟩

/-- The place behind the characters that pass a test. -/
def skipWhile (s : Spot) (test : Char → Bool) : Spot := s.skip (s.rest.takeWhile test).length

/-- The next character. -/
def next? (s : Spot) : Option Char := s.rest.head?

/-- Whether a text follows. -/
def sees (s : Spot) (text : String) : Bool := text.toList.isPrefixOf s.rest

end Spot

/-! ## Blank characters and trimming -/

/-- White space of every script, and the information separators U+001C to U+001F. -/
def isBlank (c : Char) : Bool :=
  let n := c.toNat
  if n < 0x80 then (9 ≤ n && n ≤ 13) || (0x1c ≤ n && n ≤ 0x20)
  else n == 0x85 || n == 0xa0 || n == 0x1680 || (0x2000 ≤ n && n ≤ 0x200a) || n == 0x2028 ||
    n == 0x2029 || n == 0x202f || n == 0x205f || n == 0x3000

/-- Drops the longest run at the end whose characters all pass a test. -/
def dropEndWhile (p : Char → Bool) (text : List Char) : List Char :=
  (text.reverse.dropWhile p).reverse

/-- Drops blanks at the start. -/
def trimStart (text : List Char) : List Char := text.dropWhile isBlank

/-- Drops blanks at the end. -/
def trimEnd (text : List Char) : List Char := dropEndWhile isBlank text

/-- Drops blanks at both ends. -/
def trim (text : List Char) : List Char := trimEnd (trimStart text)

/-- The words of a text: its longest runs without blanks. -/
def words (text : List Char) : List (List Char) :=
  go [] text
where
  /-- Splits with the current word held in reverse. -/
  go (word : List Char) : List Char → List (List Char)
    | [] => if word.isEmpty then [] else [word.reverse]
    | c :: rest =>
      if isBlank c then (if word.isEmpty then go [] rest else word.reverse :: go [] rest)
      else go (c :: word) rest

end CodeAudit.Text
