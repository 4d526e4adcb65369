import CodeAudit.Json.Basic
import CodeAudit.Number.Read

/-!
# Reading JSON

The reader accepts standard JSON and the words `NaN`, `Infinity` and `-Infinity`. Of the members of
an object with one name the last counts. A text that is no JSON is reported with the first place
where it goes wrong.
-/

namespace CodeAudit.Json

open Text

/-- What is wrong with a text, and at which character. -/
structure Fault where
  reason : String
  position : Nat
  deriving Repr, DecidableEq

/-- Why a text could not be read: a fault in it, or a whole number with too many digits. -/
inductive ReadError where
  | fault (f : Fault)
  | tooManyDigits (digits : Nat)
  deriving Repr, DecidableEq

/-- Passes white space. -/
def skipSpace (s : Spot) : Spot :=
  s.skipWhile fun c => c == ' ' || c == '\t' || c == '\n' || c == '\r'

/-- The fault of a reason at a place. -/
def failAt {α : Type} (reason : String) (position : Nat) : Except ReadError α :=
  .error (.fault ⟨reason, position⟩)

/-- The number that four hexadecimal digits stand for. -/
def hex4? (text : List Char) : Option Nat :=
  match text with
  | a :: b :: c :: d :: _ => do
    let a ← hexDigit? a
    let b ← hexDigit? b
    let c ← hexDigit? c
    let d ← hexDigit? d
    return ((a * 16 + b) * 16 + c) * 16 + d
  | _ => none

/-- Whether a code unit is the first half of a pair. -/
def isHighUnit (n : Nat) : Bool := 0xD800 ≤ n && n ≤ 0xDBFF

/-- Whether a code unit is the second half of a pair. -/
def isLowUnit (n : Nat) : Bool := 0xDC00 ≤ n && n ≤ 0xDFFF

/-- The character of a code unit; half a pair on its own is none. -/
def unitChar (n : Nat) : Char :=
  if isHighUnit n || isLowUnit n then '�' else Char.ofNat n

/-- The character of an escape letter. -/
def escapeChar? (c : Char) : Option Char :=
  match c with
  | '"' => some '"'
  | '\\' => some '\\'
  | '/' => some '/'
  | 'b' => some '\x08'
  | 'f' => some '\x0c'
  | 'n' => some '\n'
  | 'r' => some '\r'
  | 't' => some '\t'
  | _ => none

/-- Reads the digits of a `\u` escape, with the place of its backslash: the character, and how many
characters follow the `u`. -/
def readUnicode (digits : List Char) (backslash : Nat) : Except ReadError (Char × Nat) :=
  -- the closing quote must still be able to follow
  if digits.length ≤ 4 then failAt "Invalid \\uXXXX escape" (backslash + 1)
  else match hex4? digits with
    | none => failAt "Invalid \\uXXXX escape" (backslash + 1)
    | some n =>
      match digits.drop 4 with
      | '\\' :: 'u' :: more =>
        if isHighUnit n ∧ 4 < more.length then
          match hex4? more with
          | none => failAt "Invalid \\uXXXX escape" (backslash + 7)
          | some m =>
            if isLowUnit m then
              .ok (Char.ofNat (0x10000 + (n - 0xD800) * 0x400 + (m - 0xDC00)), 10)
            else .ok (unitChar n, 4)
        else .ok (unitChar n, 4)
      | _ => .ok (unitChar n, 4)

/-- Reads a string whose opening quote stands at `start`. Each step passes a character, so the
length of the text is enough fuel. -/
def readString (start : Nat) : Nat → Spot → List Char → Except ReadError (String × Spot)
  | 0, _, _ => failAt "Unterminated string starting at" start
  | fuel + 1, s, read =>
    match s.rest with
    | [] => failAt "Unterminated string starting at" start
    | '"' :: _ => .ok (String.ofList read.reverse, s.skip 1)
    | '\\' :: [] => failAt "Unterminated string starting at" start
    | '\\' :: 'u' :: digits => do
      let (c, n) ← readUnicode digits s.position
      readString start fuel (s.skip (2 + n)) (c :: read)
    | '\\' :: e :: _ =>
      match escapeChar? e with
      | some c => readString start fuel (s.skip 2) (c :: read)
      | none => failAt "Invalid \\escape" s.position
    | c :: _ =>
      if c.toNat < 0x20 then failAt "Invalid control character at" s.position
      else readString start fuel (s.skip 1) (c :: read)

/-- The digits at the front of a text. -/
def digitsOf (text : List Char) : List Char := text.takeWhile Char.isDigit

/-- The fraction at the front of a text, point included. -/
def fractionOf : List Char → List Char
  | '.' :: rest => match digitsOf rest with
    | [] => []
    | digits => '.' :: digits
  | _ => []

/-- The exponent at the front of a text, mark included. -/
def exponentOf : List Char → List Char
  | e :: rest =>
    if e = 'e' ∨ e = 'E' then
      let (sign, digits) := match rest with
        | '+' :: more => (['+'], digitsOf more)
        | '-' :: more => (['-'], digitsOf more)
        | _ => ([], digitsOf rest)
      if digits.isEmpty then [] else e :: sign ++ digits
    else []
  | [] => []

/-- The minus sign at the front of a text, and what follows it. -/
def splitMinus : List Char → List Char × List Char
  | '-' :: rest => (['-'], rest)
  | text => ([], text)

/-- The whole part at the front of a text: a zero, or digits that start with another. -/
def wholeOf : List Char → List Char
  | '0' :: _ => ['0']
  | text => digitsOf text

/-- Reads a number. -/
def readNumber (s : Spot) : Except ReadError (Json × Spot) :=
  let (sign, body) := splitMinus s.rest
  let whole := wholeOf body
  if whole.isEmpty then failAt "Expecting value" s.position
  else
    let rest := body.drop whole.length
    let fraction := fractionOf rest
    let exponent := exponentOf (rest.drop fraction.length)
    let lexeme := sign ++ whole ++ fraction ++ exponent
    let next := s.skip lexeme.length
    if fraction.isEmpty && exponent.isEmpty then
      if Number.maxDigits < whole.length then .error (.tooManyDigits whole.length)
      else
        let n : Int := Number.digitsNumber whole
        .ok (.int (if sign.isEmpty then n else -n), next)
    else .ok (.float ((Number.readFloat? lexeme).getD Number.notANumber), next)

/-- Reads a word that stands for a value. -/
def readWord? (s : Spot) : Option (Json × Spot) :=
  words.findSome? fun (word, value) =>
    let w := word.toList
    if w.isPrefixOf s.rest then some (value, s.skip w.length) else none
where
  /-- The words and their values. -/
  words : List (String × Json) :=
    [("null", .null), ("true", .bool true), ("false", .bool false),
     ("NaN", .float Number.notANumber), ("Infinity", .float Number.infinity),
     ("-Infinity", .float (-Number.infinity))]

mutual

/-- Reads a value. -/
def readValue : Nat → Spot → Except ReadError (Json × Spot)
  | 0, s => failAt "Expecting value" s.position
  | fuel + 1, s =>
    match s.rest with
    | '"' :: _ => do
      let (text, s) ← readString s.position (s.rest.length + 1) (s.skip 1) []
      return (.str text, s)
    | '[' :: _ =>
      let s := skipSpace (s.skip 1)
      if s.rest.head? = some ']' then .ok (.arr [], s.skip 1) else readItems fuel s []
    | c :: _ =>
      if c.toNat = 0x7b then
        let s := skipSpace (s.skip 1)
        if s.rest.head?.map Char.toNat = some 0x7d then .ok (.obj [], s.skip 1)
        else readMembers fuel s []
      else match readWord? s with
        | some found => .ok found
        | none => readNumber s
    | [] => failAt "Expecting value" s.position

/-- Reads the items of an array, with those already read in reverse. -/
def readItems : Nat → Spot → List Json → Except ReadError (Json × Spot)
  | 0, s, _ => failAt "Expecting value" s.position
  | fuel + 1, s, items => do
    let (item, s) ← readValue fuel s
    let s := skipSpace s
    match s.rest with
    | ']' :: _ => return (.arr (item :: items).reverse, s.skip 1)
    | ',' :: _ => readItems fuel (skipSpace (s.skip 1)) (item :: items)
    | _ => failAt "Expecting ',' delimiter" s.position

/-- Reads the members of an object. -/
def readMembers : Nat → Spot → List (String × Json) → Except ReadError (Json × Spot)
  | 0, s, _ => failAt "Expecting value" s.position
  | fuel + 1, s, members =>
    match s.rest with
    | '"' :: _ => do
      let (name, s) ← readString s.position (s.rest.length + 1) (s.skip 1) []
      let s := skipSpace s
      if s.rest.head? ≠ some ':' then failAt "Expecting ':' delimiter" s.position
      else
        let (value, s) ← readValue fuel (skipSpace (s.skip 1))
        let s := skipSpace s
        let members := setMember members name value
        match s.rest with
        | ',' :: _ => readMembers fuel (skipSpace (s.skip 1)) members
        | c :: _ =>
          if c.toNat = 0x7d then return (.obj members, s.skip 1)
          else failAt "Expecting ',' delimiter" s.position
        | [] => failAt "Expecting ',' delimiter" s.position
    | _ => failAt "Expecting property name enclosed in double quotes" s.position

end

/-- **Reads a JSON text.** -/
def read (text : List Char) : Except ReadError Json :=
  if text.head?.map Char.toNat = some 0xFEFF then
    failAt "Unexpected UTF-8 BOM (decode using utf-8-sig)" 0
  else do
    let (value, s) ← readValue (2 * text.length + 2) (skipSpace ⟨text, 0⟩)
    let s := skipSpace s
    if s.rest.isEmpty then return value else failAt "Extra data" s.position

/-- A fault with its line and column. -/
def Fault.message (f : Fault) (text : List Char) : String :=
  let passed := text.take f.position
  let line := passed.count '\n' + 1
  let column := (passed.reverse.takeWhile (· ≠ '\n')).length + 1
  s!"{f.reason}: line {line} column {column} (char {f.position})"

/-- Why a text could not be read. -/
def ReadError.message (e : ReadError) (text : List Char) : String :=
  match e with
  | .fault f => f.message text
  | .tooManyDigits digits => Number.tooLongMessage digits

end CodeAudit.Json
