import CodeAudit.Text.Utf8

/-!
# Tokens and places of Python source

What the reader of source hands on: names, numbers, texts, operators, and the line structure as
tokens of its own. Each token keeps its place twice, in bytes for the tree and in characters for
reports, and how far the reader had come on the line when it was done with the token.
-/

namespace CodeAudit.Syntax

/-- The kinds of tokens. -/
inductive TokenKind where
  | name
  | keyword
  | number
  | text
  | op
  | newline
  | indent
  | dedent
  | stop
  deriving Repr, DecidableEq

/-- A token. -/
structure Token where
  kind : TokenKind
  /-- The characters of the token. -/
  lexeme : String
  line : Nat
  /-- The bytes and the characters before the token on its line; none for tokens without
  characters of their own. -/
  start : Option (Nat × Nat)
  /-- How many of these bytes do not count in the column of a node that starts here. -/
  shift : Nat
  endLine : Nat
  endCol : Nat
  /-- How many brackets are open after the token. -/
  depth : Nat
  /-- How many characters of the current line were read when the token was complete. -/
  reached : Nat
  deriving Repr, DecidableEq

/-- The column that a report on a token shows. A token without characters is reported where the
reader stood. -/
def Token.column (t : Token) : Nat :=
  match t.start with
  | some (_, chars) => chars + 1
  | none => t.reached

/-- The words that cannot be names. -/
def keywords : List String :=
  ["False", "None", "True", "and", "as", "assert", "async", "await", "break", "class", "continue",
   "def", "del", "elif", "else", "except", "finally", "for", "from", "global", "if", "import", "in",
   "is", "lambda", "nonlocal", "not", "or", "pass", "raise", "return", "try", "while", "with",
   "yield"]

/-- A fault of the source: what is wrong, and where it is reported. Lines and columns count from
one; a column of zero stands for "unknown". -/
structure Fault where
  message : String
  line : Nat
  column : Nat
  deriving Repr, DecidableEq

/-- An open bracket and where it stands. -/
structure Bracket where
  symbol : Char
  line : Nat
  /-- Characters before it on its line. -/
  chars : Nat
  deriving Repr, DecidableEq

/-- The fault of a bracket that is never closed. -/
def Bracket.neverClosed (b : Bracket) : Fault :=
  ⟨s!"'{b.symbol}' was never closed", b.line, b.chars + 1⟩

/-- Why the reader stopped before the end. A `firm` fault is reported whenever the reader comes to
it; any other only if the grammar asks for the token it stands at. -/
structure Stop where
  fault : Fault
  firm : Bool
  /-- The innermost bracket that was open. -/
  opened : Option Bracket
  deriving Repr, DecidableEq

/-- A source in tokens. Without a stop the last token is the end of the source. -/
structure Tokens where
  tokens : Array Token
  stop : Option Stop
  deriving Repr

/-! ## Reading places -/

/-- A place in source, with what follows it. -/
structure Cursor where
  rest : List Char
  line : Nat
  /-- Bytes passed on the line. -/
  col : Nat
  /-- Characters passed on the line. -/
  chars : Nat
  /-- Whether the next character opens a new line. -/
  fresh : Bool
  /-- How many of the bytes on the line do not count in a reported column. -/
  shift : Nat
  deriving Repr, DecidableEq

namespace Cursor

/-- The place before the first character. -/
def start (source : List Char) : Cursor := ⟨source, 0, 0, 0, true, 0⟩

/-- Enters the line of the next character, if there is one. -/
def load (c : Cursor) : Cursor :=
  if c.fresh && !c.rest.isEmpty then ⟨c.rest, c.line + 1, 0, 0, false, 0⟩ else c

/-- Passes one character. -/
def step (c : Cursor) : Cursor :=
  let c := c.load
  match c.rest with
  | [] => c
  | x :: rest =>
    ⟨rest, c.line, c.col + Text.Utf8.charWidth x, c.chars + 1, x == '\n', c.shift⟩

/-- Passes a number of characters. -/
def skip : Nat → Cursor → Cursor
  | 0, c => c
  | n + 1, c => skip n c.step

/-- Passes the characters up to the end of the line, and its line feed. -/
def skipLine (c : Cursor) : Cursor :=
  let c := c.load
  let body := c.rest.takeWhile (· ≠ '\n')
  skip (body.length + 1) c

end Cursor

end CodeAudit.Syntax
