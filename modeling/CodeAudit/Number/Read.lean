import CodeAudit.Number.Binary
import CodeAudit.Text.Casing
import CodeAudit.Text.Identifier
import CodeAudit.Text.Lines

/-!
# Reading numbers

Whole numbers and decimals as people write them: blanks around, a sign, digits of any script with
single underscores between them, and for decimals a point, an exponent, or the words for infinity
and for not a number.
-/

namespace CodeAudit.Number

open CodeAudit.Text

/-- The blanks of ASCII. -/
def isPlainBlank (c : Char) : Bool := (9 ≤ c.toNat && c.toNat ≤ 13) || c == ' '

/-- The ASCII form of a number's text: digits of other scripts become ASCII digits and other blanks
become spaces. A text that is ASCII already stays as it is. -/
def plainForm (text : List Char) : List Char :=
  if text.all (·.toNat < 0x80) then text
  else text.map fun c =>
    if c.toNat < 0x80 ∧ ¬ isBlank c then c
    else if isBlank c then ' '
    else match digitValue? c with
      | some d => Nat.digitChar d
      | none => '?'

/-- Drops ASCII blanks at both ends. -/
def trimPlain (text : List Char) : List Char :=
  dropEndWhile isPlainBlank (text.dropWhile isPlainBlank)

/-- A sign at the front: whether it is a minus, and what follows. -/
def splitSign : List Char → Bool × List Char
  | '-' :: rest => (true, rest)
  | '+' :: rest => (false, rest)
  | rest => (false, rest)

/-- The number that a run of ASCII digits stands for. -/
def digitsNumber (digits : List Char) : Nat :=
  digits.foldl (fun n c => 10 * n + (c.toNat - 48)) 0

/-- Digits with single underscores between them: the digits, and what follows them. An underscore
that is not followed by a digit is left. -/
def spanDigits : List Char → List Char × List Char
  | [] => ([], [])
  | c :: rest =>
    if c.isDigit then
      let (digits, left) := spanMore rest
      (c :: digits, left)
    else ([], c :: rest)
where
  /-- Goes on after a digit. -/
  spanMore : List Char → List Char × List Char
    | [] => ([], [])
    | '_' :: d :: rest =>
      if d.isDigit then
        let (digits, left) := spanMore rest
        (d :: digits, left)
      else ([], '_' :: d :: rest)
    | c :: rest =>
      if c.isDigit then
        let (digits, left) := spanMore rest
        (c :: digits, left)
      else ([], c :: rest)

/-- The most digits a whole number may have. -/
def maxDigits : Nat := 4300

/-- Why a text is not a whole number. -/
inductive IntFault where
  | malformed
  | tooLong (digits : Nat)
  deriving Repr, DecidableEq

/-- The report of a whole number with too many digits. -/
def tooLongMessage (digits : Nat) : String :=
  s!"Exceeds the limit ({maxDigits} digits) for integer string conversion: "
    ++ s!"value has {digits} digits; " ++ "use sys.set_int_max_str_digits() to increase the limit"

/-- Whether a whole number can be written: it has no more digits than one may have. -/
def isWritable (n : Int) : Bool := n.natAbs < Nat.pow 10 maxDigits

/-- The report of a whole number that cannot be written. -/
def unwritableMessage : String :=
  s!"Exceeds the limit ({maxDigits} digits) for integer string conversion; "
    ++ "use sys.set_int_max_str_digits() to increase the limit"

/-- The report of a text that is not a whole number. -/
def IntFault.message (shown : String) : IntFault → String
  | .malformed => "invalid literal for int() with base 10: " ++ shown
  | .tooLong digits => tooLongMessage digits

/-- Reads a whole number. -/
def readInt (text : List Char) : Except IntFault Int :=
  let (negative, body) := splitSign ((plainForm text).dropWhile isPlainBlank)
  let (digits, left) := spanDigits body
  if digits.isEmpty then .error .malformed
  else if maxDigits < digits.length then .error (.tooLong digits.length)
  else if left.all isPlainBlank then
    .ok (if negative then -(digitsNumber digits : Int) else digitsNumber digits)
  else .error .malformed

/-- The double nearest to `digits * 10 ^ exponent`. Exponents that leave the range of doubles are
not computed. -/
def decimalFloat (negative : Bool) (digits : Nat) (exponent : Int) : Float :=
  if digits = 0 then ofMagnitudeBits negative 0
  else
    let size : Int := exponent + (Nat.toDigits 10 digits).length
    if 400 < size then ofMagnitudeBits negative infinityBits
    else if size < -400 then ofMagnitudeBits negative 0
    else if 0 ≤ exponent then nearest negative (digits * Nat.pow 10 exponent.toNat) 1
    else nearest negative digits (Nat.pow 10 (-exponent).toNat)

/-- Reads an exponent, if one stands at the front: its value and what follows. -/
def readExponent : List Char → Int × List Char
  | [] => (0, [])
  | e :: rest =>
    if e = 'e' ∨ e = 'E' then
      let (negative, body) := splitSign rest
      let (digits, left) := spanDigits body
      if digits.isEmpty then (0, e :: rest)
      else
        let size : Int := digitsNumber digits
        (if negative then -size else size, left)
    else (0, e :: rest)

/-- Reads an unsigned decimal. -/
def readMagnitude? (negative : Bool) (text : List Char) : Option Float :=
  let (whole, rest) := spanDigits text
  let (fraction, rest) := match rest with
    | '.' :: tail => spanDigits tail
    | _ => ([], rest)
  if whole.isEmpty && fraction.isEmpty then none
  else
    let (exponent, rest) := readExponent rest
    if rest.isEmpty then
      some (decimalFloat negative (digitsNumber (whole ++ fraction)) (exponent - fraction.length))
    else none

/-- Reads a decimal, or the word for infinity or not a number. -/
def readFloat? (text : List Char) : Option Float :=
  let (negative, body) := splitSign (trimPlain (plainForm text))
  let word := body.map Char.toLower
  if word = "inf".toList ∨ word = "infinity".toList then
    some (ofMagnitudeBits negative infinityBits)
  else if word = "nan".toList then some notANumber
  else readMagnitude? negative body

end CodeAudit.Number
