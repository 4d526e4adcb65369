import CodeAudit.Syntax.Numeral
import CodeAudit.Syntax.Token
import CodeAudit.Text.Identifier
import CodeAudit.Text.Quoted

/-!
# From source to tokens

The reader goes over the source once and cuts it into tokens: indentation becomes tokens of its
own, line ends inside brackets vanish, and the first thing that is no token stops it. Tabs count
twice, to the next multiple of eight and as one column; a line whose two measures disagree about
its indentation is refused.
-/

namespace CodeAudit.Syntax

open CodeAudit.Text (isIdentifierStart isIdentifierPart isPrintable paddedHexUpper)

/-- What the reader remembers between tokens. -/
structure Lexer where
  cursor : Cursor
  /-- The open indentations, innermost first, each measured in both ways; the outermost level is
  not listed. -/
  indents : List (Nat × Nat)
  /-- Dedents still to be handed out. -/
  dedents : Nat
  /-- Whether an indent is to be handed out. -/
  indentDue : Bool
  atLineStart : Bool
  brackets : List Bracket
  /-- The line and the column at which the source starts. -/
  origin : Nat × Nat
  deriving Repr

/-- The deepest indentation and bracketing that is read. -/
def maxIndents : Nat := 100

/-- The deepest bracketing that is read. -/
def maxBrackets : Nat := 200

/-- How many bytes do not count in the column of what starts at a place and ends at another. On the
line on which an embedded source starts, what goes on over the end of the line is counted from the
start of that source. -/
def Lexer.shift (s : Lexer) (start stop : Cursor) : Nat :=
  if start.line = s.origin.1 ∧ stop.line ≠ start.line then s.origin.2 else start.shift

/-- The token that ends at a place and starts at another. -/
def Lexer.token (s : Lexer) (kind : TokenKind) (lexeme : List Char) (start stop : Cursor) : Token :=
  ⟨kind, String.ofList lexeme, start.line, some (start.col, start.chars), s.shift start stop,
    stop.line, stop.col, s.brackets.length, stop.chars⟩

/-- A token without characters. -/
def Lexer.emptyToken (s : Lexer) (kind : TokenKind) : Token :=
  ⟨kind, "", s.cursor.line, none, 0, s.cursor.line, 0, s.brackets.length, s.cursor.chars⟩

/-- A stop with a report at a place. -/
def Lexer.refuse (s : Lexer) (firm : Bool) (message : String) (line column : Nat) : Stop :=
  ⟨⟨message, line, column⟩, firm, s.brackets.head?⟩

/-- A firm stop at the last character that was read. -/
def Lexer.refuseAt (s : Lexer) (message : String) (c : Cursor) : Stop :=
  s.refuse true message c.line c.chars

/-- A code point as reports show it. -/
def codePoint (c : Char) : String := "U+" ++ String.ofList (paddedHexUpper 4 c.toNat)

/-! ## Line structure -/

/-- Passes a line continuation, with the backslash already read. -/
def continueLine (s : Lexer) (c : Cursor) : Except Stop Cursor :=
  match c.rest with
  | '\n' :: more =>
    let c := c.step
    if more.isEmpty then
      .error (s.refuse false "unexpected EOF while parsing" c.line c.chars)
    else .ok c.load
  | _ =>
    .error (s.refuse false "unexpected character after line continuation character" c.line
      (if c.rest.isEmpty then c.chars else c.step.chars))

/-- The indentation at a cursor: both measures, and the first measure before a continuation. -/
structure Indentation where
  cursor : Cursor
  width : Nat
  narrow : Nat
  continued : Nat

/-- Measures the indentation of a line. -/
def measureIndent (s : Lexer) : Nat → Indentation → Except Stop Indentation
  | 0, i => .ok i
  | fuel + 1, i =>
    let c := i.cursor.load
    match c.rest with
    | ' ' :: _ =>
      measureIndent s fuel
        { i with cursor := c.step, width := i.width + 1, narrow := i.narrow + 1 }
    | '\t' :: _ =>
      measureIndent s fuel
        { i with cursor := c.step, width := (i.width / 8 + 1) * 8, narrow := i.narrow + 1 }
    | '\x0c' :: _ => measureIndent s fuel { i with cursor := c.step, width := 0, narrow := 0 }
    | '\\' :: _ => do
      let continued := if i.continued = 0 then i.width else i.continued
      let next ← continueLine s c.step
      measureIndent s fuel { i with cursor := next, continued }
    | _ => .ok { i with cursor := c }

/-- The measures of the current indentation level. -/
def Lexer.indent (s : Lexer) : Nat × Nat := s.indents.headD (0, 0)

/-- The fault of an indentation whose two measures disagree. -/
def Lexer.tabFault (s : Lexer) (c : Cursor) : Stop :=
  s.refuse false "inconsistent use of tabs and spaces in indentation" c.line 1

/-- The end of the line a cursor stands on. -/
def lineEnd (c : Cursor) : Cursor := c.skipLine

/-- Compares a line's indentation with the open levels and notes the indent or dedents due. -/
def Lexer.applyIndent (s : Lexer) (c : Cursor) (width narrow : Nat) : Except Stop Lexer :=
  let (w, a) := s.indent
  if width = w then
    if narrow = a then .ok s else .error (s.tabFault c)
  else if w < width then
    if maxIndents ≤ s.indents.length + 1 then
      .error (s.refuse false "too many levels of indentation" c.line 1)
    else if narrow ≤ a then .error (s.tabFault c)
    else .ok { s with indents := (width, narrow) :: s.indents, indentDue := true }
  else
    let kept := s.indents.dropWhile fun (open_, _) => width < open_
    let (w, a) := kept.headD (0, 0)
    if width ≠ w then
      .error (s.refuse false "unindent does not match any outer indentation level" c.line
        (lineEnd c).chars)
    else if narrow ≠ a then .error (s.tabFault c)
    else .ok { s with indents := kept, dedents := s.indents.length - kept.length }

/-- Reads the indentation at the start of a line. The flag says whether the line is blank, with
nothing on it but white space or a comment. -/
def Lexer.startLine (s : Lexer) : Except Stop (Lexer × Bool) := do
  let i ← measureIndent s (s.cursor.rest.length + 1) ⟨s.cursor, 0, 0, 0⟩
  let s := { s with cursor := i.cursor, atLineStart := false }
  match i.cursor.rest with
  | '#' :: _ => return (s, true)
  | '\n' :: _ => return (s, true)
  | _ =>
    if s.brackets.isEmpty then
      let width := if i.continued = 0 then i.width else i.continued
      let narrow := if i.continued = 0 then i.narrow else i.continued
      return (← s.applyIndent i.cursor width narrow, false)
    else return (s, false)

/-! ## Names, texts and operators -/

/-- The number of letters in front of a quote, if they announce a text. -/
def textMark (bytes raw unicode formatted : Bool) (n : Nat) : List Char → Option Nat
  | [] => none
  | c :: rest =>
    let next := fun (b r u f : Bool) =>
      match rest with
      | q :: _ =>
        if q = '"' ∨ q = Text.singleQuote then some (n + 1) else textMark b r u f (n + 1) rest
      | [] => none
    let l := c.toLower
    if l = 'b' ∧ !(bytes || unicode || formatted) then next true raw unicode formatted
    else if l = 'u' ∧ !(bytes || unicode || raw || formatted) then next bytes raw true formatted
    else if l = 'r' ∧ !(raw || unicode) then next bytes true unicode formatted
    else if l = 'f' ∧ !(formatted || bytes || unicode) then next bytes raw unicode true
    else none

/-- The number of characters up to the end of a text in single quotes, or up to where it breaks
off. -/
def shortText (quote : Char) (n : Nat) : List Char → Nat × Bool
  | [] => (n, false)
  | '\\' :: [] => (n + 1, false)
  | '\\' :: _ :: rest => shortText quote (n + 2) rest
  | c :: rest =>
    if c = quote then (n + 1, true)
    else if c = '\n' then (n + 1, false)
    else shortText quote (n + 1) rest

/-- The number of characters up to the end of a text in triple quotes; `seen` counts the quotes
just passed. -/
def longText (quote : Char) (seen n : Nat) : List Char → Nat × Bool
  | [] => (n, false)
  | '\\' :: [] => (n + 1, false)
  | '\\' :: _ :: rest => longText quote 0 (n + 2) rest
  | c :: rest =>
    if c = quote then
      if seen = 2 then (n + 1, true) else longText quote (seen + 1) (n + 1) rest
    else longText quote 0 (n + 1) rest

/-- Reads a text whose opening quote stands `mark` characters ahead. -/
def Lexer.readText (s : Lexer) (start : Cursor) (mark : Nat) : Except Stop (Token × Lexer) :=
  match start.rest.drop mark with
  | [] => .error (s.refuseAt "invalid syntax" start)
  | quote :: body =>
    let (length, closed, long) :=
      match body with
      | a :: b :: rest =>
        if a = quote ∧ b = quote then
          let (n, closed) := longText quote 0 (mark + 3) rest
          (n, closed, true)
        else if a = quote then (mark + 2, true, false)
        else
          let (n, closed) := shortText quote (mark + 1) body
          (n, closed, false)
      | _ =>
        let (n, closed) := shortText quote (mark + 1) body
        (n, closed, false)
    let stop := start.skip length
    if closed then
      .ok (s.token .text (start.rest.take length) start stop, { s with cursor := stop })
    else
      let kind := if long then "triple-quoted string" else "string"
      .error (s.refuse true s!"unterminated {kind} literal (detected at line {stop.line})"
        start.line (start.chars + 1))

/-- The first character that a name may not hold, with the characters before it counted. -/
def badNameChar (n : Nat) : List Char → Option (Nat × Char)
  | [] => none
  | c :: rest =>
    if (if n = 0 then isIdentifierStart c else isIdentifierPart c) then badNameChar (n + 1) rest
    else some (n, c)

/-- Reads a name or keyword. -/
def Lexer.readName (s : Lexer) (start : Cursor) : Except Stop (Token × Lexer) :=
  let lexeme := start.rest.takeWhile Numeral.isNameChar
  match badNameChar 0 lexeme with
  | some (n, c) =>
    let what := if isPrintable c then s!"invalid character '{c}' ({codePoint c})"
      else s!"invalid non-printable character {codePoint c}"
    .error (s.refuseAt what (start.skip (n + 1)))
  | none =>
    let stop := start.skip lexeme.length
    let kind := if keywords.contains (String.ofList lexeme) then TokenKind.keyword else .name
    .ok (s.token kind lexeme start stop, { s with cursor := stop })

/-- Reads a number. -/
def Lexer.readNumber (s : Lexer) (start : Cursor) (found : Numeral.Extent) :
    Except Stop (Token × Lexer) :=
  match found with
  | .ok (n, _) =>
    let stop := start.skip n
    .ok (s.token .number (start.rest.take n) start stop, { s with cursor := stop })
  | .error bad =>
    if bad.atStart then .error (s.refuse true bad.message start.line (start.col + 1))
    else .error (s.refuseAt bad.message (start.skip bad.consumed))

/-- The operators of three characters. -/
def operators3 : List String := ["**=", "//=", "<<=", ">>=", "..."]

/-- The operators of two characters. -/
def operators2 : List String :=
  ["!=", "%=", "&=", "**", "*=", "+=", "-=", "->", "//", "/=", ":=", "<<", "<=", "<>", "==", ">=",
   ">>", "@=", "^=", "|="]

/-- The closing bracket of an opening one. -/
def closingOf (c : Char) : Char :=
  if c = '(' then ')' else if c = '[' then ']' else Char.ofNat 0x7d

/-- Reads an operator of one character, and opens or closes a bracket with it. -/
def Lexer.readSymbol (s : Lexer) (start : Cursor) (c : Char) : Except Stop (Token × Lexer) := do
  let stop := start.step
  let s ←
    if c = '(' ∨ c = '[' ∨ c.toNat = 0x7b then
      if maxBrackets ≤ s.brackets.length then .error (s.refuseAt "too many nested parentheses" stop)
      else .ok { s with brackets := ⟨c, start.line, start.chars⟩ :: s.brackets }
    else if c = ')' ∨ c = ']' ∨ c.toNat = 0x7d then
      match s.brackets with
      | [] => .error (s.refuseAt s!"unmatched '{c}'" stop)
      | b :: outer =>
        let s := { s with brackets := outer }
        if closingOf b.symbol = c then .ok s
        else
          let place := if b.line = start.line then "" else s!" on line {b.line}"
          .error (s.refuseAt
            (s!"closing parenthesis '{c}' does not match opening parenthesis '{b.symbol}'" ++ place)
            stop)
    else if isPrintable c then .ok s
    else .error (s.refuseAt s!"invalid non-printable character {codePoint c}" stop)
  .ok (s.token .op [c] start stop, { s with cursor := stop })

/-- Reads an operator. -/
def Lexer.readOperator (s : Lexer) (start : Cursor) : Except Stop (Token × Lexer) :=
  let three := String.ofList (start.rest.take 3)
  let two := String.ofList (start.rest.take 2)
  if operators3.contains three then
    let stop := start.skip 3
    .ok (s.token .op three.toList start stop, { s with cursor := stop })
  else if operators2.contains two then
    let stop := start.skip 2
    .ok (s.token .op two.toList start stop, { s with cursor := stop })
  else match start.rest with
    | c :: _ => s.readSymbol start c
    | [] => .error (s.refuseAt "invalid syntax" start)

/-! ## The whole source -/

/-- Passes blanks and a comment. -/
def skipBlanks (c : Cursor) : Cursor :=
  let c := c.load
  let c := c.skip (c.rest.takeWhile fun x => x == ' ' || x == '\t' || x == '\x0c').length
  match c.rest with
  | '#' :: _ => c.skip (c.rest.takeWhile (· ≠ '\n')).length
  | _ => c

/-- What the reader comes to next: a token, or nothing but a line to pass over. -/
inductive LexStep where
  | token (t : Token) (s : Lexer)
  | again (s : Lexer)
  | finished (t : Token)

/-- Reads from the middle of a line. -/
def Lexer.readFrom (s : Lexer) (blank : Bool) : Except Stop LexStep :=
  let c := skipBlanks s.cursor
  let reading := fun (r : Except Stop (Token × Lexer)) => r.map fun (t, s) => LexStep.token t s
  match c.rest with
  | [] =>
    match s.brackets with
    | b :: _ => .error ⟨b.neverClosed, false, some b⟩
    | [] => .ok (.finished (Lexer.emptyToken { s with cursor := c } .stop))
  | x :: rest =>
    if x = '\n' then
      let after := c.step
      let next := { s with cursor := after, atLineStart := true }
      if blank || !s.brackets.isEmpty then .ok (.again next)
      else
        let t := { s.token .newline [] c c with reached := after.chars }
        .ok (.token t next)
    else if x.isAlpha || x == '_' || 0x80 ≤ x.toNat then
      match textMark false false false false 0 c.rest with
      | some mark => reading (s.readText c mark)
      | none => reading (s.readName c)
    else if x.isDigit then reading (s.readNumber c (Numeral.extent c.rest))
    else if x = '.' && (rest.head?.map Char.isDigit).getD false then
      reading (s.readNumber c (Numeral.fraction 1 rest))
    else if x = '"' ∨ x = Text.singleQuote then reading (s.readText c 0)
    else if x = '\\' then
      (continueLine s c.step).map fun next => LexStep.again { s with cursor := next }
    else reading (s.readOperator c)

/-- Reads up to the next token, or over a line or continuation. -/
def Lexer.read (s : Lexer) : Except Stop LexStep := do
  let (s, blank) ← if s.atLineStart then s.startLine else .ok (s, false)
  if s.indentDue then return .token (s.emptyToken .indent) { s with indentDue := false }
  else if 0 < s.dedents then
    return .token (s.emptyToken .dedent) { s with dedents := s.dedents - 1 }
  else s.readFrom blank

/-- Reads all tokens. Every step passes a character or hands out a token that an earlier indent
paid for, so fuel of twice the length is enough. -/
def Lexer.readAll : Nat → Lexer → Array Token → Tokens
  | 0, _, tokens => ⟨tokens, none⟩
  | fuel + 1, s, tokens =>
    match s.read with
    | .error stop => ⟨tokens, some stop⟩
    | .ok (.finished t) => ⟨tokens.push t, none⟩
    | .ok (.again s) => readAll fuel s tokens
    | .ok (.token t s) => readAll fuel s (tokens.push t)

/-- The tokens of a source that starts at a cursor. -/
def lexFrom (c : Cursor) : Tokens :=
  Lexer.readAll (2 * c.rest.length + 4) ⟨c, [], 0, false, true, [], (c.line, c.col)⟩ #[]

/-- A source with a line feed at its end. -/
def endWithNewline (source : List Char) : List Char :=
  if source.getLast? = some '\n' then source else source ++ ['\n']

/-- **The tokens of a source.** -/
def lex (source : List Char) : Tokens := lexFrom (Cursor.start (endWithNewline source))

end CodeAudit.Syntax
