/-!
# Reading UTF-8

Bytes become characters either strictly, where the first malformed sequence is reported with its
place and fault, or with replacement, where each malformed sequence becomes one U+FFFD. A malformed
sequence is the longest run of bytes that could have started a character, or one byte that starts
none.
-/

namespace CodeAudit.Text.Utf8

/-- Why a byte sequence is not a character. -/
inductive Fault where
  | invalidStart
  | invalidContinuation
  | endOfData
  deriving Repr, DecidableEq

/-- The wording of a fault. -/
def Fault.reason : Fault → String
  | .invalidStart => "invalid start byte"
  | .invalidContinuation => "invalid continuation byte"
  | .endOfData => "unexpected end of data"

/-- What stands at the front of a byte sequence: a character of `width` bytes, or a malformed
sequence of `width` bytes. -/
inductive Head where
  | char (c : Char) (width : Nat)
  | bad (fault : Fault) (width : Nat)
  deriving Repr, DecidableEq

/-- Whether a byte lies between two bounds. -/
def within (lo hi : Nat) (b : UInt8) : Bool := lo ≤ b.toNat && b.toNat ≤ hi

/-- The low six bits of a continuation byte. -/
def tailBits (b : UInt8) : Nat := b.toNat % 64

/-- The bounds of the second byte after a first byte, and the number of bytes in all. -/
def secondBounds (b : UInt8) : Option (Nat × Nat × Nat) :=
  let n := b.toNat
  if 0xC2 ≤ n ∧ n ≤ 0xDF then some (2, 0x80, 0xBF)
  else if n = 0xE0 then some (3, 0xA0, 0xBF)
  else if n = 0xED then some (3, 0x80, 0x9F)
  else if 0xE1 ≤ n ∧ n ≤ 0xEF then some (3, 0x80, 0xBF)
  else if n = 0xF0 then some (4, 0x90, 0xBF)
  else if 0xF1 ≤ n ∧ n ≤ 0xF3 then some (4, 0x80, 0xBF)
  else if n = 0xF4 then some (4, 0x80, 0x8F)
  else none

/-- The character or fault at the front of a non-empty byte sequence. -/
def head (first : UInt8) (rest : List UInt8) : Head :=
  if first.toNat < 0x80 then .char (Char.ofNat first.toNat) 1
  else match secondBounds first with
    | none => .bad .invalidStart 1
    | some (width, lo, hi) =>
      match rest with
      | [] => .bad .endOfData 1
      | b :: rest =>
        if !within lo hi b then .bad .invalidContinuation 1
        else if width = 2 then .char (Char.ofNat (first.toNat % 32 * 64 + tailBits b)) 2
        else match rest with
          | [] => .bad .endOfData 2
          | c :: rest =>
            if !within 0x80 0xBF c then .bad .invalidContinuation 2
            else if width = 3 then
              .char (Char.ofNat ((first.toNat % 16 * 64 + tailBits b) * 64 + tailBits c)) 3
            else match rest with
              | [] => .bad .endOfData 3
              | d :: _ =>
                if !within 0x80 0xBF d then .bad .invalidContinuation 3
                else .char (Char.ofNat
                  (((first.toNat % 8 * 64 + tailBits b) * 64 + tailBits c) * 64 + tailBits d)) 4

/-- Decodes with replacement. The first argument counts bytes of the current sequence that are
still to be passed over. -/
def replaceFrom : Nat → List UInt8 → List Char
  | _, [] => []
  | n + 1, _ :: rest => replaceFrom n rest
  | 0, b :: rest =>
    match head b rest with
    | .char c width => c :: replaceFrom (width - 1) rest
    | .bad _ width => '�' :: replaceFrom (width - 1) rest

/-- Decodes, with U+FFFD for each malformed sequence. -/
def decodeReplacing (bytes : List UInt8) : List Char := replaceFrom 0 bytes

/-- A malformed sequence: where it starts, its bytes and its fault. -/
structure Malformed where
  position : Nat
  width : Nat
  first : UInt8
  fault : Fault
  deriving Repr, DecidableEq

/-- Decodes strictly, with the number of bytes already passed. -/
def decodeFrom (position : Nat) : Nat → List UInt8 → Except Malformed (List Char)
  | _, [] => .ok []
  | n + 1, _ :: rest => decodeFrom (position + 1) n rest
  | 0, b :: rest =>
    match head b rest with
    | .char c width => (decodeFrom (position + 1) (width - 1) rest).map (c :: ·)
    | .bad fault width => .error ⟨position, width, b, fault⟩

/-- Decodes, or reports the first malformed sequence. -/
def decode (bytes : List UInt8) : Except Malformed (List Char) := decodeFrom 0 0 bytes

/-- The number of bytes a character takes. -/
def charWidth (c : Char) : Nat :=
  if c.toNat < 0x80 then 1 else if c.toNat < 0x800 then 2 else if c.toNat < 0x10000 then 3 else 4

/-- The number of bytes a text takes. -/
def width (text : List Char) : Nat := text.foldl (fun n c => n + charWidth c) 0

/-- The bytes of a character. -/
def encodeChar (c : Char) : List UInt8 :=
  let n := c.toNat
  let tail (k : Nat) : UInt8 := UInt8.ofNat (0x80 + k % 64)
  if n < 0x80 then [UInt8.ofNat n]
  else if n < 0x800 then [UInt8.ofNat (0xC0 + n / 64), tail n]
  else if n < 0x10000 then [UInt8.ofNat (0xE0 + n / 0x1000), tail (n / 64), tail n]
  else [UInt8.ofNat (0xF0 + n / 0x40000), tail (n / 0x1000), tail (n / 64), tail n]

/-- The bytes of a text. -/
def encode (text : List Char) : List UInt8 := text.flatMap encodeChar

/-- Two hexadecimal digits of a byte, lower case. -/
def hexByte (b : UInt8) : List Char :=
  [Nat.digitChar (b.toNat / 16), Nat.digitChar (b.toNat % 16)]

/-- The report of a malformed sequence. -/
def Malformed.message (m : Malformed) : String :=
  if m.width = 1 then
    s!"'utf-8' codec can't decode byte 0x{String.ofList (hexByte m.first)} "
      ++ s!"in position {m.position}: " ++ m.fault.reason
  else
    s!"'utf-8' codec can't decode bytes in position {m.position}-{m.position + m.width - 1}: "
      ++ m.fault.reason

end CodeAudit.Text.Utf8
