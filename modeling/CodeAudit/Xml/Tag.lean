import CodeAudit.Xml.Scan

/-!
# Tags

A start tag is scanned character by character with a state that says what may come next; a scanned
tag is then cut into its name and attributes.
-/

namespace CodeAudit.Xml

/-- What may come next in a start tag. -/
inductive TagState where
  /-- The element name goes on; whether it has a colon yet. -/
  | name (colon : Bool)
  /-- The second part of the element name starts. -/
  | localName
  /-- Blanks behind the element name. -/
  | gap
  /-- An attribute name goes on; whether it has a colon yet. -/
  | attName (colon : Bool)
  /-- The second part of an attribute name starts. -/
  | localAttName
  | beforeEquals
  | beforeValue
  /-- A value in quotes. -/
  | value (quote : Char)
  /-- A reference in a value starts. -/
  | reference (quote : Char)
  | entityName (quote : Char)
  | number (quote : Char)
  | decimal (quote : Char)
  | hexStart (quote : Char)
  | hex (quote : Char)
  | afterValue
  /-- Blanks between attributes. -/
  | between
  | slash
  deriving Repr, DecidableEq

/-- What a character does in a start tag. -/
inductive TagStep where
  | go (next : TagState)
  /-- The tag ends; whether the element is empty. -/
  | finish (empty : Bool)
  | wrong
  deriving Repr, DecidableEq

/-- Whether a character is a quote. -/
def isQuote (c : Char) : Bool := c == '"' || c.toNat == 0x27

/-- **The next state of a start tag.** -/
def TagState.step (s : TagState) (c : Char) : TagStep :=
  match s with
  | name colon =>
    if isNameChar c then .go (name colon)
    else if c = ':' then if colon then .wrong else .go localName
    else if isSpace c then .go gap
    else ending c
  | localName => if isNameStart c then .go (name true) else .wrong
  | gap =>
    if isNameStart c then .go (attName false) else if isSpace c then .go gap else ending c
  | attName colon =>
    if isNameChar c then .go (attName colon)
    else if c = ':' then if colon then .wrong else .go localAttName
    else if isSpace c then .go beforeEquals
    else if c = '=' then .go beforeValue
    else .wrong
  | localAttName => if isNameStart c then .go (attName true) else .wrong
  | beforeEquals =>
    if c = '=' then .go beforeValue else if isSpace c then .go beforeEquals else .wrong
  | beforeValue =>
    if isQuote c then .go (value c) else if isSpace c then .go beforeValue else .wrong
  | value q =>
    if c = q then .go afterValue
    else if !isChar c || c == '<' then .wrong
    else if c = '&' then .go (reference q)
    else .go (value q)
  | reference q =>
    if isNameStart c then .go (entityName q) else if c = '#' then .go (number q) else .wrong
  | entityName q =>
    if isNameChar c then .go (entityName q) else if c = ';' then .go (value q) else .wrong
  | number q =>
    if c = 'x' then .go (hexStart q) else if c.isDigit then .go (decimal q) else .wrong
  | decimal q =>
    if c.isDigit then .go (decimal q) else if c = ';' then .go (value q) else .wrong
  | hexStart q => if Text.isHexDigit c then .go (hex q) else .wrong
  | hex q => if Text.isHexDigit c then .go (hex q) else if c = ';' then .go (value q) else .wrong
  | afterValue => if isSpace c then .go between else ending c
  | between =>
    if isNameStart c then .go (attName false) else if isSpace c then .go between else ending c
  | slash => if c = '>' then .finish true else .wrong
where
  /-- The end of a tag, or the slash before it. -/
  ending (c : Char) : TagStep :=
    if c = '>' then .finish false else if c = '/' then .go slash else .wrong

/-- Scans a start tag from a state on; `kind` says what becomes of an empty element. -/
def scanTag {α : Type} (kind : Bool → α) (s : TagState) (n : Nat) : List Char → Scan α
  | [] => .cut
  | c :: rest =>
    match s.step c with
    | .go next => scanTag kind next (n + 1) rest
    | .finish empty => .token (kind empty) (n + 1)
    | .wrong => .bad n

/-- Scans the blanks at the end of an end tag. -/
def scanEndTagGap {α : Type} (kind : α) (n : Nat) : List Char → Scan α
  | [] => .cut
  | c :: rest =>
    if isSpace c then scanEndTagGap kind (n + 1) rest
    else if c = '>' then .token kind (n + 1)
    else .bad n

/-- Scans an end tag from within its name on. -/
def scanEndTagName {α : Type} (kind : α) (n : Nat) : List Char → Scan α
  | [] => .cut
  | c :: rest =>
    if isNameChar c || c == ':' then scanEndTagName kind (n + 1) rest
    else if isSpace c then scanEndTagGap kind (n + 1) rest
    else if c = '>' then .token kind (n + 1)
    else .bad n

/-- Scans an end tag from behind its slash on. -/
def scanEndTag {α : Type} (kind : α) (n : Nat) : List Char → Scan α
  | [] => .cut
  | c :: rest => if isNameStart c then scanEndTagName kind (n + 1) rest else .bad n

/-- The name at the front of a text, colons included. -/
def rawName (text : List Char) : List Char := text.takeWhile fun c => isNameChar c || c == ':'

/-- An attribute as it is written: its name and value, and where they start. -/
structure RawAttribute where
  name : List Char
  position : Nat
  value : List Char
  valuePosition : Nat
  deriving Repr

/-- The attributes in the rest of a start tag, from a position on. Each takes characters away, so
the length of the text is enough fuel. -/
def rawAttributes : Nat → Nat → List Char → List RawAttribute
  | 0, _, _ => []
  | fuel + 1, position, text =>
    let gap := (text.takeWhile isSpace).length
    let text := text.drop gap
    let position := position + gap
    let name := rawName text
    if name.isEmpty then []
    else
      let rest := text.drop name.length
      let between := (rest.takeWhile fun c => isSpace c || c == '=').length
      match rest.drop between with
      | [] => []
      | quote :: rest =>
        let value := rest.takeWhile (· ≠ quote)
        let start := position + name.length + between + 1
        ⟨name, position, value, start⟩ ::
          rawAttributes fuel (start + value.length + 1) (rest.drop (value.length + 1))

end CodeAudit.Xml
