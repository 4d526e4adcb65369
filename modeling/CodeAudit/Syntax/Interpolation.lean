import CodeAudit.Syntax.Escape
import CodeAudit.Syntax.Token
import CodeAudit.Text.Quoted

/-!
# Expressions inside formatted texts

A formatted text holds expressions between braces, each optionally followed by a conversion and by
a format, which may hold expressions in turn. This module finds them; reading them as expressions
is the grammar's work. An expression is handed on between parentheses, the opening one in the place
of the brace, so that its tokens keep their places in the source.
-/

namespace CodeAudit.Syntax

/-- An expression in a formatted text, with the expressions in its format if it has one. -/
inductive Field where
  | mk (expr : Cursor) (spec : Option (List Field))

namespace Interpolation

/-- What the scan of a formatted text yields: the fields that it found, and where it came to its end
or what is wrong after them. -/
structure Scan where
  fields : List Field
  stop : Except String Cursor

/-- A scan that ends with a fault. -/
def Scan.fault (message : String) : Scan := ⟨[], .error message⟩

/-- A scan with a field before its others. -/
def Scan.after (f : Field) (s : Scan) : Scan := ⟨f :: s.fields, s.stop⟩

/-- The opening and the closing brace. -/
def openBrace : Char := Char.ofNat 0x7b

/-- The closing brace. -/
def closeBrace : Char := Char.ofNat 0x7d

/-- Passes blanks of ASCII. -/
def skipSpace (c : Cursor) : Cursor :=
  c.skip (c.rest.takeWhile fun x => (9 ≤ x.toNat && x.toNat ≤ 13) || x == ' ').length

/-- The quote a scan is inside of, and whether it is a triple one. -/
abbrev Inside := Option (Char × Bool)

/-- The closing bracket that belongs to an opening one. -/
def closes (opening closing : Char) : Bool :=
  (opening == '(' && closing == ')') || (opening == '[' && closing == ']') ||
    (opening == openBrace && closing == closeBrace)

/-- Finds the end of an expression: the number of its characters up to the mark that ends it.
`skip` characters belong to what was read last and are passed over. -/
def exprLength (inside : Inside) (brackets : List Char) (skip n : Nat) :
    List Char → Except String Nat
  | [] =>
    if inside.isSome then .error "f-string: unterminated string"
    else match brackets with
      | b :: _ => .error s!"f-string: unmatched '{b}'"
      | [] => .error "f-string: expecting '\x7d'"
  | c :: rest =>
    if 0 < skip then exprLength inside brackets (skip - 1) (n + 1) rest
    else if c = '\\' then .error "f-string expression part cannot include a backslash"
    else match inside with
      | some (quote, long) =>
        if c ≠ quote then exprLength inside brackets 0 (n + 1) rest
        else if !long then exprLength none brackets 0 (n + 1) rest
        else if rest.take 2 = [quote, quote] then exprLength none brackets 2 (n + 1) rest
        else exprLength inside brackets 0 (n + 1) rest
      | none =>
        if c = '"' ∨ c = Text.singleQuote then
          if rest.take 2 = [c, c] then exprLength (some (c, true)) brackets 2 (n + 1) rest
          else exprLength (some (c, false)) brackets 0 (n + 1) rest
        else if c = '(' ∨ c = '[' ∨ c = openBrace then
          exprLength none (c :: brackets) 0 (n + 1) rest
        else if c = '#' then .error "f-string expression part cannot include '#'"
        else if brackets.isEmpty ∧
            (c = '!' ∨ c = ':' ∨ c = closeBrace ∨ c = '=' ∨ c = '<' ∨ c = '>') then
          if rest.head? = some '=' ∧ (c = '!' ∨ c = '=' ∨ c = '<' ∨ c = '>') then
            exprLength none brackets 1 (n + 1) rest
          else if c = '<' ∨ c = '>' then exprLength none brackets 0 (n + 1) rest
          else .ok n
        else if c = ')' ∨ c = ']' ∨ c = closeBrace then
          match brackets with
          | [] => .error s!"f-string: unmatched '{c}'"
          | b :: outer =>
            if closes b c then exprLength none outer 0 (n + 1) rest
            else .error (s!"f-string: closing parenthesis '{c}' does not match "
              ++ s!"opening parenthesis '{b}'")
        else exprLength none brackets 0 (n + 1) rest

/-- Whether the expression is more than blanks. -/
def hasContent (text : List Char) : Bool :=
  text.any fun c => !(c == ' ' || c == '\t' || c == '\n' || c == '\x0c' || c == '\r')

/-- The expression at an opening brace, ready to be read: in parentheses, as a source of its own. -/
def enclosed (brace : Cursor) (n : Nat) : Cursor :=
  { brace.load with rest := '(' :: (brace.rest.drop 1).take n ++ [')', '\n'] }

/-- Passes the `=` of a self-documenting expression and the conversion. -/
def afterExpr (c : Cursor) : Except String Cursor := do
  let c := match c.rest with
    | '=' :: _ => skipSpace c.step
    | _ => c
  match c.rest with
  | '!' :: kind :: _ =>
    if kind = 's' ∨ kind = 'r' ∨ kind = 'a' then return c.step.step
    else .error "f-string: invalid conversion character: expected 's', 'r', or 'a'"
  | '!' :: [] => .error "f-string: expecting '\x7d'"
  | _ => return c

/-- How deep formats with expressions may lie in each other. -/
def maxDepth : Nat := 2

/-- What is wrong with a piece of text between expressions, given from its end to its start. -/
def pieceFault? (raw : Bool) (piece : List Char) : Option String :=
  if raw then none else Escape.textFault? piece.reverse

/-- Scans a formatted text, at its top level or `depth` formats deep. `piece` holds the text since
the last expression or doubled brace, from its end to its start. Each step passes a character, so
fuel of the remaining length is enough. -/
def scan (raw : Bool) (depth : Nat) : Nat → List Char → Cursor → Scan
  | 0, _, c => ⟨[], .ok c⟩
  | fuel + 1, piece, c =>
    let pass := fun (n : Nat) => scan raw depth fuel ((c.rest.take n).reverse ++ piece) (c.skip n)
    let sound := fun (piece : List Char) (next : Scan) =>
      match pieceFault? raw piece with
      | some message => Scan.fault message
      | none => next
    match c.rest with
    | [] => sound piece ⟨[], .ok c⟩
    | x :: rest =>
      if !raw && x == '\\' && !rest.isEmpty && rest.head? != some openBrace &&
          rest.head? != some closeBrace then
        if rest.take 2 = ['N', openBrace] then
          pass (4 + ((rest.drop 2).takeWhile (· ≠ closeBrace)).length)
        else if rest.head? = some 'N' then pass 3
        else pass 2
      else if x ≠ openBrace ∧ x ≠ closeBrace then pass 1
      else if depth = 0 ∧ rest.head? = some x then
        sound (x :: piece) (scan raw depth fuel [] (c.skip 2))
      else if x = closeBrace then
        if 0 < depth then sound piece ⟨[], .ok c⟩
        else .fault "f-string: single '\x7d' is not allowed"
      else sound piece <|
        if maxDepth ≤ depth then .fault "f-string: expressions nested too deeply"
        else match exprLength none [] 0 0 rest with
        | .error message => .fault message
        | .ok n =>
          if !hasContent (rest.take n) then .fault "f-string: empty expression not allowed"
          else
            let expr := enclosed c n
            match afterExpr (c.skip (n + 1)) with
            | .error message => ⟨[.mk expr none], .error message⟩
            | .ok after =>
              let spec : Option Scan := match after.rest with
                | ':' :: _ => some (scan raw (depth + 1) fuel [] after.step)
                | _ => none
              let field := Field.mk expr (spec.map (·.fields))
              match (spec.map (·.stop)).getD (.ok after) with
              | .error message => ⟨[field], .error message⟩
              | .ok after =>
                if after.rest.head? = some closeBrace then
                  (scan raw depth fuel [] after.step).after field
                else ⟨[field], .error "f-string: expecting '\x7d'"⟩

end Interpolation

/-- How a text token is marked: its letters, and the length of its quotes. -/
structure TextMark where
  bytes : Bool
  raw : Bool
  formatted : Bool
  letters : Nat
  quotes : Nat

/-- The marks of a text token. -/
def TextMark.of (lexeme : List Char) : TextMark :=
  let letters := lexeme.takeWhile Char.isAlpha
  let has := fun (c : Char) => letters.any (·.toLower == c)
  let quotes := match lexeme.drop letters.length with
    | a :: b :: c :: _ => if a = b ∧ b = c then 3 else 1
    | _ => 1
  ⟨has 'b', has 'r', has 'f', letters.length, quotes⟩

/-- The characters between the quotes of a text token. -/
def TextMark.body (m : TextMark) (lexeme : List Char) : List Char :=
  let inner := lexeme.drop (m.letters + m.quotes)
  inner.take (inner.length - m.quotes)

/-- The expressions in a formatted text token, and what is wrong after them. -/
def Token.fields (t : Token) (m : TextMark) : List Field × Option String :=
  let lexeme := t.lexeme.toList
  let (col, chars) := t.start.getD (0, 0)
  let start : Cursor := ⟨lexeme.take (lexeme.length - m.quotes), t.line, col, chars, false, t.shift⟩
  let body := start.skip (m.letters + m.quotes)
  let scan := Interpolation.scan m.raw 0 (body.rest.length + 1) [] body
  match scan.stop with
  | .ok _ => (scan.fields, none)
  | .error message => (scan.fields, some message)

end CodeAudit.Syntax
