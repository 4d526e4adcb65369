import CodeAudit.Text.Identifier

/-!
# Escapes in text literals

A backslash in a literal starts an escape. Most that mean nothing stand for themselves; those that
begin a number or a name and do not finish it make the literal unreadable. Places are counted in the
form in which escapes are resolved: there a character beyond ASCII is itself an escape of ten
characters, and a backslash before one is an escape of six.
-/

namespace CodeAudit.Syntax.Escape

/-- The length of a character in that form. -/
def width (c : Char) : Nat := if c.toNat < 0x80 then 1 else 10

/-- The length of a text in that form. -/
def widthOf (text : List Char) : Nat := text.foldl (fun total c => total + width c) 0

/-- The number that hexadecimal digits write. -/
def hexNumber (digits : List Char) : Nat := digits.foldl (fun n c => 16 * n + Text.hexValue c) 0

/-- The reason why the escape at a place cannot be read, and the place after what was read of it. -/
structure Flaw where
  reason : String
  stop : Nat

/-- The flaw of an escape that needs a number of digits. -/
def numberFlaw? (shape : String) (count place : Nat) (rest : List Char) : Option Flaw :=
  let digits := (rest.take count).takeWhile Text.isHexDigit
  if digits.length < count then
    some ⟨s!"truncated \\{shape} escape", place + 2 + digits.length⟩
  else if 0x10ffff < hexNumber digits then some ⟨"illegal Unicode character", place + 2 + count⟩
  else none

/-- Whether a character may stand in the name of a character. Names are not looked up: one that is
made of such characters counts as known. -/
def isNameChar (c : Char) : Bool := c.isAlphanum || c == ' ' || c == '-'

/-- The flaw of an escape by name. -/
def nameFlaw? (place : Nat) (rest : List Char) : Option Flaw :=
  let malformed := "malformed \\N character escape"
  match rest with
  | [] => some ⟨malformed, place + 2⟩
  | b :: more =>
    if b ≠ Char.ofNat 0x7b then some ⟨malformed, place + 2⟩
    else
      let name := more.takeWhile (· ≠ Char.ofNat 0x7d)
      if name.length = more.length then some ⟨malformed, place + 3 + widthOf name⟩
      else if name.isEmpty then some ⟨malformed, place + 3⟩
      else if name.all isNameChar then none
      else some ⟨"unknown Unicode character name", place + 4 + widthOf name⟩

/-- The flaw of the escape with a letter after its backslash. -/
def flaw? (letter : Char) (place : Nat) (rest : List Char) : Option Flaw :=
  if letter = 'x' then numberFlaw? "xXX" 2 place rest
  else if letter = 'u' then numberFlaw? "uXXXX" 4 place rest
  else if letter = 'U' then numberFlaw? "UXXXXXXXX" 8 place rest
  else if letter = 'N' then nameFlaw? place rest
  else none

/-- The first escape of a text that cannot be read, with its place. The character after a backslash
is passed over. -/
def firstFlaw? (skip : Bool) (place : Nat) : List Char → Option (Nat × Flaw)
  | [] => none
  | c :: rest =>
    if skip || c ≠ '\\' then firstFlaw? false (place + width c) rest
    else match rest with
      | [] => none
      | x :: more =>
        if 0x80 ≤ x.toNat then firstFlaw? false (place + 6) rest
        else match flaw? x place more with
          | some f => some (place, f)
          | none => firstFlaw? true (place + 1) rest

/-- **What is wrong with the escapes of a text.** -/
def textFault? (body : List Char) : Option String :=
  (firstFlaw? false 0 body).map fun (place, f) =>
    s!"(unicode error) 'unicodeescape' codec can't decode bytes in position {place}-{f.stop - 1}: "
      ++ f.reason

/-- The place of the first unfinished number among the escapes of bytes, one further if it has a
digit. -/
def badByte? (skip : Bool) (place : Nat) : List Char → Option Nat
  | [] => none
  | c :: rest =>
    if skip || c ≠ '\\' then badByte? false (place + 1) rest
    else
      let digits := ((rest.drop 1).take 2).takeWhile Text.isHexDigit
      if rest.head? = some 'x' ∧ digits.length < 2 then some (place + digits.length)
      else badByte? true (place + 1) rest

/-- **What is wrong with the escapes of bytes.** -/
def bytesFault? (body : List Char) : Option String :=
  (badByte? false 0 body).map fun place => s!"(value error) invalid \\x escape at position {place}"

end CodeAudit.Syntax.Escape
