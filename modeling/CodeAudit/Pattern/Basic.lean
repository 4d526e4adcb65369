import CodeAudit.Text.Identifier
import CodeAudit.Text.Lines

/-!
# Patterns of text

A pattern describes pieces of text by single characters, sequence, ordered choice and repetition.
Where a text fits a pattern in several ways the order decides: the first choice before the second,
more repetitions before fewer (or fewer before more, for a reluctant repetition), and of several
places the leftmost.

`Pattern.run` tries the ways in that order and hands each to what follows, so the first way that
the rest of the pattern accepts is the one that is found.
-/

namespace CodeAudit

/-- A pattern of text. -/
inductive Pattern where
  /-- Nothing at all. -/
  | empty
  /-- One character that passes a test. -/
  | one (test : Char → Bool)
  /-- One pattern, then another. -/
  | seq (first second : Pattern)
  /-- One pattern, or else another. -/
  | alt (first second : Pattern)
  /-- A pattern at least a number of times; a reluctant one is repeated as rarely as possible. -/
  | many (least : Nat) (reluctant : Bool) (body : Pattern)
  /-- A pattern or nothing, the pattern preferred. -/
  | maybe (body : Pattern)
  /-- A pattern whose text is kept under a number. -/
  | capture (index : Nat) (body : Pattern)
  /-- The start of the text. -/
  | textStart
  /-- The end of the text, or the line feed that ends it. -/
  | textEnd
  /-- The start of a line. -/
  | lineStart
  /-- The end of a line. -/
  | lineEnd
  /-- A place with a word character on exactly one side. -/
  | wordEdge

namespace Pattern

instance : Append Pattern := ⟨seq⟩

instance : OrElse Pattern := ⟨fun a b => alt a (b ())⟩

instance : Inhabited Pattern := ⟨empty⟩

/-- A text kept under a number, and where it starts. -/
structure Capture where
  index : Nat
  start : Nat
  text : List Char
  deriving Repr

/-- A place in a text: the character before it, what follows, how many characters are passed, and
the texts captured on the way, the latest first. -/
structure Place where
  before : Option Char
  rest : List Char
  position : Nat
  captured : List Capture
  deriving Repr

/-- The place before a text. -/
def Place.start (text : List Char) : Place := ⟨none, text, 0, []⟩

/-- The place behind the first character of what follows. -/
def Place.next (p : Place) (c : Char) (rest : List Char) : Place :=
  ⟨some c, rest, p.position + 1, p.captured⟩

/-- Whether a place stands between a word character and something else. -/
def Place.atWordEdge (p : Place) : Bool :=
  (p.before.any Text.isWord) != (p.rest.head?.any Text.isWord)

/-- A way to go on from a place. -/
abbrev Continue (α : Type) := Place → Option α

/-- Repeats a step, greedily or reluctantly; a repetition that gets nowhere is not repeated. The
fuel bounds the number of repetitions. -/
def repeated {α : Type} (step : Place → Continue α → Option α) (reluctant : Bool) :
    Nat → Nat → Place → Continue α → Option α
  | 0, _, p, k => k p
  | fuel + 1, 0, p, k =>
    let more := fun (_ : Unit) =>
      step p fun q =>
        if q.position = p.position then none else repeated step reluctant fuel 0 q k
    if reluctant then (k p).orElse more else (more ()).orElse fun _ => k p
  | fuel + 1, least + 1, p, k => step p fun q => repeated step reluctant fuel least q k

/-- **Tries the ways in which a pattern fits at a place**, in order, until one can go on. -/
def run {α : Type} : Pattern → Place → Continue α → Option α
  | empty, p, k => k p
  | one test, p, k =>
    match p.rest with
    | c :: rest => if test c then k (p.next c rest) else none
    | [] => none
  | seq a b, p, k => run a p fun q => run b q k
  | alt a b, p, k => (run a p k).orElse fun _ => run b p k
  | many least reluctant a, p, k =>
    repeated (fun q k => run a q k) reluctant (p.rest.length + least + 1) least p k
  | maybe a, p, k => (run a p k).orElse fun _ => k p
  | capture i a, p, k =>
    run a p fun q =>
      k { q with
        captured := ⟨i, p.position, p.rest.take (q.position - p.position)⟩ :: q.captured }
  | textStart, p, k => if p.before.isNone then k p else none
  | textEnd, p, k => if p.rest.isEmpty || p.rest == ['\n'] then k p else none
  | lineStart, p, k => if p.before.all (· == '\n') then k p else none
  | lineEnd, p, k => if p.rest.head?.all (· == '\n') then k p else none
  | wordEdge, p, k => if p.atWordEdge then k p else none

/-- A piece of text that fits a pattern. -/
structure Found where
  start : Nat
  stop : Nat
  captured : List Capture
  deriving Repr

/-- What is kept under a number, if that part of the pattern took part. -/
def Found.capture? (m : Found) (i : Nat) : Option Capture := m.captured.find? (·.index == i)

/-- The text kept under a number. -/
def Found.group (m : Found) (i : Nat) : List Char := ((m.capture? i).map (·.text)).getD []

/-- The column, from one, at which the text kept under a number starts. -/
def Found.column (m : Found) (i : Nat) : Nat := ((m.capture? i).map (·.start)).getD m.start + 1

/-- What fits at a place. -/
def matchAt (pattern : Pattern) (p : Place) : Option (Found × Place) :=
  run pattern p fun q => some (⟨p.position, q.position, q.captured⟩, q)

/-- What fits at a place or at the first place after it. -/
def searchFrom (pattern : Pattern) (before : Option Char) (position : Nat) :
    List Char → Option (Found × Place)
  | [] => matchAt pattern ⟨before, [], position, []⟩
  | c :: rest =>
    match matchAt pattern ⟨before, c :: rest, position, []⟩ with
    | some found => some found
    | none => searchFrom pattern (some c) (position + 1) rest

/-- The leftmost piece of a text that fits. -/
def search (pattern : Pattern) (text : List Char) : Option Found :=
  (searchFrom pattern none 0 text).map (·.1)

/-- What fits at the start of a text. -/
def matchStart (pattern : Pattern) (text : List Char) : Option Found :=
  (matchAt pattern (Place.start text)).map (·.1)

/-- Whether a whole text fits. -/
def matchesAll (pattern : Pattern) (text : List Char) : Bool :=
  (run pattern (Place.start text) fun q => if q.rest.isEmpty then some () else none).isSome

/-- Whether any piece of a text fits. -/
def occurs (pattern : Pattern) (text : List Char) : Bool := (search pattern text).isSome

/-- The pieces that fit, from left to right and not overlapping, from a place on. After a piece
without characters the search goes on one character later. -/
def findFrom (pattern : Pattern) : Nat → Option Char → Nat → List Char → List Found
  | 0, _, _, _ => []
  | fuel + 1, before, position, text =>
    match searchFrom pattern before position text with
    | none => []
    | some (found, q) =>
      if found.start < found.stop then
        found :: findFrom pattern fuel q.before q.position q.rest
      else match q.rest with
        | [] => [found]
        | c :: rest => found :: findFrom pattern fuel (some c) (q.position + 1) rest

/-- All pieces of a text that fit, from left to right and not overlapping. -/
def findAll (pattern : Pattern) (text : List Char) : List Found :=
  findFrom pattern (text.length + 1) none 0 text

/-! ## Common patterns -/

/-- One certain character. -/
def char (c : Char) : Pattern := one (· == c)

/-- One of several characters. -/
def anyOf (chars : String) : Pattern :=
  let list := chars.toList
  one list.contains

/-- A character other than some. -/
def noneOf (chars : String) : Pattern :=
  let list := chars.toList
  one fun c => !list.contains c

/-- Any character but a line feed. -/
def anyChar : Pattern := one (· != '\n')

/-- A certain text. -/
def text (s : String) : Pattern := s.toList.foldr (fun c p => seq (char c) p) empty

/-- One of several texts, the first that fits. -/
def oneOf : List String → Pattern
  | [] => one fun _ => false
  | [s] => text s
  | s :: rest => alt (text s) (oneOf rest)

/-- Any number of times, as often as possible. -/
def star (p : Pattern) : Pattern := many 0 false p

/-- At least once, as often as possible. -/
def plus (p : Pattern) : Pattern := many 1 false p

/-- At least once, as rarely as possible. -/
def plusReluctant (p : Pattern) : Pattern := many 1 true p

/-- A blank. -/
def blank : Pattern := one Text.isBlank

/-- Blanks, possibly none. -/
def blanks : Pattern := star blank

/-- Blanks, at least one. -/
def blanks1 : Pattern := plus blank

/-- A word character. -/
def wordChar : Pattern := one Text.isWord

/-- A decimal digit of any script. -/
def digit : Pattern := one Text.isDecimal

/-- An ASCII letter. -/
def letter : Pattern := one Char.isAlpha

/-- An ASCII letter or digit. -/
def letterOrDigit : Pattern := one Char.isAlphanum

/-- An identifier: an ASCII letter or underscore, then word characters. -/
def identifier : Pattern := one (fun c => c.isAlpha || c == '_') ++ star wordChar

/-- A quote, single or double. -/
def quote : Pattern := one fun c => c == '"' || c.toNat == 0x27

/-- A character other than a quote. -/
def notQuote : Pattern := one fun c => !(c == '"' || c.toNat == 0x27)

/-! ## Either case -/

/-- Whether a character is an ASCII letter in either case. Besides the two ASCII forms these are
the dotted and the dotless i, the long s and the Kelvin sign. -/
def sameLetter (c d : Char) : Bool :=
  let l := c.toLower
  d.toLower == l || (l == 'i' && (d.toNat == 0x130 || d.toNat == 0x131)) ||
    (l == 's' && d.toNat == 0x17f) || (l == 'k' && d.toNat == 0x212a)

/-- A certain text in either case. -/
def textAnyCase (s : String) : Pattern :=
  s.toList.foldr (fun c p => seq (one (sameLetter c)) p) empty

/-- One of several texts in either case. -/
def oneOfAnyCase : List String → Pattern
  | [] => one fun _ => false
  | [s] => textAnyCase s
  | s :: rest => alt (textAnyCase s) (oneOfAnyCase rest)

/-- Whether a character is an ASCII letter, or counts as one in either case. -/
def isLetterAnyCase (c : Char) : Bool :=
  c.isAlpha || c.toNat == 0x130 || c.toNat == 0x131 || c.toNat == 0x17f || c.toNat == 0x212a

end Pattern

end CodeAudit
