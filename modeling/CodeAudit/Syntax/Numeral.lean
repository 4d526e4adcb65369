import CodeAudit.Text.Identifier

/-!
# Number literals of Python source

The extent of a number literal, or the fault in it. A literal may be followed at once by one of a
few keywords, but by no other name character.
-/

namespace CodeAudit.Syntax.Numeral

/-- Why a number literal is refused: the report, and how many characters of the literal had been
read. A report `atStart` is placed at the first character. -/
structure Bad where
  message : String
  consumed : Nat
  atStart : Bool := false
  deriving Repr, DecidableEq

/-- How far a literal has been read, and what follows. -/
abbrev Extent := Except Bad (Nat × List Char)

/-- The characters that may stand in a name; everything beyond ASCII is taken for one here. -/
def isNameChar (c : Char) : Bool := c.isAlphanum || c == '_' || 0x80 ≤ c.toNat

/-- Whether a keyword's remaining letters follow, and no further name character. -/
def keywordFollows (letters rest : List Char) : Bool :=
  letters.isPrefixOf rest &&
    match rest.drop letters.length with
    | [] => true
    | c :: _ => !isNameChar c

/-- Whether a keyword that may stand directly behind a number follows. -/
def keywordBehind : List Char → Bool
  | 'a' :: rest => keywordFollows ['n', 'd'] rest
  | 'e' :: rest => keywordFollows ['l', 's', 'e'] rest
  | 'f' :: rest => keywordFollows ['o', 'r'] rest
  | 'o' :: rest => keywordFollows ['r'] rest
  | 'i' :: c :: _ => c == 'f' || c == 'n' || c == 's'
  | _ => false

/-- Accepts the end of a literal, unless a name character stands behind it. -/
def finish (kind : String) (n : Nat) (rest : List Char) : Extent :=
  if keywordBehind rest then .ok (n, rest)
  else match rest with
    | c :: _ =>
      if isNameChar c then .error ⟨s!"invalid {kind} literal", n, false⟩ else .ok (n, rest)
    | [] => .ok (n, rest)

/-- Passes digits, with single underscores between them. -/
def decimalTail (n : Nat) : List Char → Extent
  | '_' :: rest =>
    match rest with
    | d :: rest =>
      if d.isDigit then decimalTail (n + 2) rest
      else .error ⟨"invalid decimal literal", n + 1, false⟩
    | [] => .error ⟨"invalid decimal literal", n + 1, false⟩
  | d :: rest => if d.isDigit then decimalTail (n + 1) rest else .ok (n, d :: rest)
  | [] => .ok (n, [])

/-- The imaginary mark, or the end of the literal. -/
def afterExponent (n : Nat) (rest : List Char) : Extent :=
  match rest with
  | c :: tail =>
    if c = 'j' ∨ c = 'J' then finish "imaginary" (n + 1) tail else finish "decimal" n rest
  | [] => finish "decimal" n rest

/-- An exponent, if one stands here, and the rest of the literal. -/
def afterFraction (n : Nat) (rest : List Char) : Extent :=
  match rest with
  | e :: tail =>
    if e = 'e' ∨ e = 'E' then
      match tail with
      | s :: more =>
        if s = '+' ∨ s = '-' then
          match more with
          | d :: digits =>
            if d.isDigit then
              (decimalTail (n + 3) digits).bind fun (n, rest) => afterExponent n rest
            else .error ⟨"invalid decimal literal", n + 2, false⟩
          | [] => .error ⟨"invalid decimal literal", n + 2, false⟩
        else if s.isDigit then (decimalTail (n + 2) more).bind fun (n, rest) => afterExponent n rest
        else finish "decimal" n rest
      | [] => finish "decimal" n rest
    else afterExponent n rest
  | [] => afterExponent n rest

/-- The digits behind a point. -/
def fraction (n : Nat) (rest : List Char) : Extent :=
  match rest with
  | d :: tail =>
    if d.isDigit then (decimalTail (n + 1) tail).bind fun (n, rest) => afterFraction n rest
    else afterFraction n rest
  | [] => afterFraction n rest

/-- A point or what else may follow the whole digits. -/
def afterWhole (n : Nat) (rest : List Char) : Extent :=
  match rest with
  | '.' :: tail => fraction (n + 1) tail
  | _ => afterFraction n rest

/-- Whether a digit belongs to a base. -/
def isBaseDigit (base : Nat) (c : Char) : Bool :=
  if base = 16 then Text.isHexDigit c
  else c.isDigit && c.toNat < 48 + base

/-- The name of a base. -/
def baseName (base : Nat) : String :=
  if base = 16 then "hexadecimal" else if base = 8 then "octal" else "binary"

/-- The fault of a character where a digit of the base is due. -/
def badDigit (base n : Nat) : List Char → Bad
  | c :: _ =>
    if base ≠ 16 ∧ c.isDigit then
      ⟨s!"invalid digit '{c}' in {baseName base} literal", n + 1, false⟩
    else ⟨s!"invalid {baseName base} literal", n, false⟩
  | [] => ⟨s!"invalid {baseName base} literal", n, false⟩

/-- Passes the digits of a base; `due` says that a digit must come next. -/
def baseDigits (base : Nat) (due : Bool) (n : Nat) : List Char → Extent
  | [] => if due then .error (badDigit base n []) else finish (baseName base) n []
  | '_' :: rest =>
    if due then .error (badDigit base n ('_' :: rest))
    else match rest with
      | d :: more =>
        if isBaseDigit base d then baseDigits base false (n + 2) more
        else .error (badDigit base (n + 1) rest)
      | [] => .error (badDigit base (n + 1) [])
  | c :: rest =>
    if isBaseDigit base c then baseDigits base false (n + 1) rest
    else if due ∨ (base ≠ 16 ∧ c.isDigit) then .error (badDigit base n (c :: rest))
    else finish (baseName base) n (c :: rest)

/-- Reads the digits behind the mark of a base, where an underscore may come first. -/
def based (base : Nat) (rest : List Char) : Extent :=
  match rest with
  | '_' :: more => baseDigits base true 3 more
  | _ => baseDigits base true 2 rest

/-- Passes the zeros at the front of a literal. -/
def zeros (n : Nat) : List Char → Extent
  | '_' :: rest =>
    match rest with
    | d :: more =>
      if d = '0' then zeros (n + 2) more
      else if d.isDigit then .ok (n + 1, rest)
      else .error ⟨"invalid decimal literal", n + 1, false⟩
    | [] => .error ⟨"invalid decimal literal", n + 1, false⟩
  | c :: rest => if c = '0' then zeros (n + 1) rest else .ok (n, c :: rest)
  | [] => .ok (n, [])

/-- A literal that starts with a zero and names no base: all zeros, or not whole. -/
def afterZero (rest : List Char) : Extent := do
  let (n, rest) ← zeros 1 rest
  match rest with
  | d :: tail =>
    if d.isDigit then
      let (n, rest) ← decimalTail (n + 1) tail
      match rest with
      | c :: _ =>
        if c = '.' ∨ c = 'e' ∨ c = 'E' ∨ c = 'j' ∨ c = 'J' then afterWhole n rest
        else .error leadingZeros
      | [] => .error leadingZeros
    else afterWhole n rest
  | [] => afterWhole n rest
where
  /-- The fault of a whole number with zeros in front. -/
  leadingZeros : Bad :=
    ⟨"leading zeros in decimal integer literals are not permitted; "
      ++ "use an 0o prefix for octal integers", 0, true⟩

/-- The extent of the literal at the front of a text that starts with a digit. -/
def extent (text : List Char) : Extent :=
  match text with
  | '0' :: c :: rest =>
    if c = 'x' ∨ c = 'X' then based 16 rest
    else if c = 'o' ∨ c = 'O' then based 8 rest
    else if c = 'b' ∨ c = 'B' then based 2 rest
    else afterZero (c :: rest)
  | '0' :: [] => afterZero []
  | _ :: rest => (decimalTail 1 rest).bind fun (n, rest) => afterWhole n rest
  | [] => .ok (0, [])

end CodeAudit.Syntax.Numeral
