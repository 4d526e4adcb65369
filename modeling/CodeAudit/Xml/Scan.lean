import CodeAudit.Text.Identifier

/-!
# Names and tokens

A scan looks at the text from the start of a token on and tells how long the token is, that the
text ends before it does, or at which character it goes wrong.
-/

namespace CodeAudit.Xml

/-! ## Characters of XML names -/

/-- White space. -/
def isSpace (c : Char) : Bool := c == ' ' || c == '\t' || c == '\n' || c == '\r'

/-- Whether a character may stand in a document. -/
def isChar (c : Char) : Bool :=
  let n := c.toNat
  (0x20 ≤ n && n != 0xFFFE && n != 0xFFFF) || c == '\t' || c == '\n' || c == '\r'

/-- Letters beyond ASCII. -/
def letterRuns : Array Text.Table.Run := Text.Table.readRuns
  "b6M1U1WQ2A271WL1X59W4314TWPXQI6bA012101J1WC16301010101HDB1X31B1W4EWL21213R2721WOW6207W6XBQ52WFP6
   9W7X8241E1310F1mFWL30Q9W47212L161033W3112E1J5412L16111111W0310J2G610121L16111430W30W57212L161123
   30U112W45321331101131323712XD7121M1914W71W47121M1914W5011W47121M1FW71a4WE1011C5WS110211020631612
   1010211110119024YU71W1f0W6AW7901112101114WA01010B0101031305210101010313110W90902021711016W904080
   Yb9a04XR6L252W625271010101U2WL1610321633254C5216eI03120XJ2YvR0P8NXLCXRAW8cq1qs7Ye0goB"

/-- Further characters of names beyond ASCII: digits, combining characters and extenders. -/
def followerRuns : Array Text.Table.Run := Text.Table.readRuns
  "aS0m91WFX7Q1W60d33dIG1M12101110YU0A7D960Y8E211329lN2WP01F33D129H2WP016212290A129I0WQ0144122OBF2W
   P0171212O9H2WP015312281E9I1WR4321390F8H2WR6121371F9I1WR6121371F9I1WR5221390E9b7026B819XP02511901
   529X0169B0101041WIJ1545101K3610Zm3C40ZW00W5514Y6121Y02"

/-- Whether a name may start with a character. -/
def isNameStart (c : Char) : Bool :=
  if c.toNat < 0x80 then c.isAlpha || c == '_' else Text.Table.contains letterRuns c.toNat

/-- Whether a character may stand in a name. -/
def isNameChar (c : Char) : Bool :=
  if c.toNat < 0x80 then c.isAlphanum || c == '_' || c == '-' || c == '.'
  else Text.Table.contains letterRuns c.toNat || Text.Table.contains followerRuns c.toNat

/-! ## Scanning tokens -/

/-- The outcome of a scan for a token of some kind. -/
inductive Scan (α : Type) where
  /-- A token of a length. -/
  | token (kind : α) (length : Nat)
  /-- A token that reaches to the end of the text and might go on. -/
  | unfinished (kind : α) (length : Nat)
  /-- The text ends within the token. -/
  | cut
  /-- The character after a number of others is wrong. -/
  | bad (offset : Nat)
  deriving Repr

/-- Scans the rest of a comment, up to `-->`; two hyphens stand nowhere else. -/
def scanComment {α : Type} (kind : α) (n : Nat) : List Char → Scan α
  | [] => .cut
  | '-' :: '-' :: rest =>
    match rest with
    | [] => .cut
    | c :: _ => if c = '>' then .token kind (n + 3) else .bad (n + 2)
  | c :: rest => if isChar c then scanComment kind (n + 1) rest else .bad n

/-- Scans the rest of an instruction, up to `?>`. -/
def scanInstructionRest {α : Type} (kind : α) (n : Nat) : List Char → Scan α
  | [] => .cut
  | '?' :: '>' :: _ => .token kind (n + 2)
  | c :: rest => if isChar c then scanInstructionRest kind (n + 1) rest else .bad n

/-- Kinds of instructions. -/
inductive Instruction where
  | plain
  | declaration
  deriving Repr, DecidableEq

/-- The kind of instruction that a target stands for; the name `xml` is reserved in any case. -/
def instructionKind? (target : List Char) : Option Instruction :=
  if target = "xml".toList then some .declaration
  else if target.map Char.toLower = "xml".toList then none
  else some .plain

/-- Scans an instruction from its target on, with the target so far in reverse. -/
def scanTarget {α : Type} (kind : Instruction → α) (n : Nat) (target : List Char) :
    List Char → Scan α
  | [] => .cut
  | c :: rest =>
    if (if target.isEmpty then isNameStart c else isNameChar c) then
      scanTarget kind (n + 1) (c :: target) rest
    else if target.isEmpty then .bad n
    else if isSpace c then
      match instructionKind? target.reverse with
      | some k => scanInstructionRest (kind k) (n + 1) rest
      | none => .bad n
    else if c = '?' then
      match instructionKind? target.reverse with
      | none => .bad n
      | some k =>
        match rest with
        | [] => .cut
        | d :: _ => if d = '>' then .token (kind k) (n + 2) else .bad (n + 1)
    else .bad n

/-- Scans the rest of a name that ends with a semicolon. -/
def scanNameRef {α : Type} (kind : α) (n : Nat) : List Char → Scan α
  | [] => .cut
  | c :: rest =>
    if isNameChar c then scanNameRef kind (n + 1) rest
    else if c = ';' then .token kind (n + 1)
    else .bad n

/-- Scans the digits of a character number up to a semicolon; one digit is needed. -/
def scanDigits {α : Type} (kind : α) (isDigit : Char → Bool) (any : Bool) (n : Nat) :
    List Char → Scan α
  | [] => .cut
  | c :: rest =>
    if isDigit c then scanDigits kind isDigit true (n + 1) rest
    else if any && c == ';' then .token kind (n + 1)
    else .bad n

/-- Kinds of references. -/
inductive Reference where
  | entity
  | character
  deriving Repr, DecidableEq

/-- Scans a reference, from behind the ampersand. -/
def scanReference {α : Type} (kind : Reference → α) (n : Nat) : List Char → Scan α
  | [] => .cut
  | '#' :: rest =>
    match rest with
    | 'x' :: rest => scanDigits (kind .character) Text.isHexDigit false (n + 2) rest
    | _ => scanDigits (kind .character) Char.isDigit false (n + 1) rest
  | c :: rest => if isNameStart c then scanNameRef (kind .entity) (n + 1) rest else .bad n

/-- The number that a character reference stands for, unless no such character may stand in a
document. The text is the reference from its ampersand to its semicolon. -/
def characterNumber? (reference : List Char) : Option Char :=
  let digits := (reference.drop 2).dropLast
  let n := match digits with
    | 'x' :: hex => hex.foldl (fun n c => 16 * n + Text.hexValue c) 0
    | _ => digits.foldl (fun n c => 10 * n + (c.toNat - 48)) 0
  if n < 0x110000 ∧ ¬(0xD800 ≤ n ∧ n ≤ 0xDFFF) ∧ isChar (Char.ofNat n) then some (Char.ofNat n)
  else none

end CodeAudit.Xml
