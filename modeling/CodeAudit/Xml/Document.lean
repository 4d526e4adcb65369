import CodeAudit.Text.Utf8
import CodeAudit.Xml.Content

/-!
# XML documents

A document is decoded by its byte order mark or declared encoding, read up to its end, and the
attributes of its root element are kept.
-/

namespace CodeAudit.Xml

/-! ## The XML declaration -/

/-- A setting in the XML declaration: its name and value and where they start. -/
structure Setting where
  name : List Char
  position : Nat
  value : List Char
  valuePosition : Nat

/-- Whether a character may stand in the value of a setting. -/
def isSettingChar (c : Char) : Bool := c.isAlphanum || c == '.' || c == '-' || c == '_'

/-- Reads one setting: what it is and what follows, nothing if the declaration ends, or where it
goes wrong. -/
def readSetting (position : Nat) (text : List Char) :
    Except Nat (Option (Setting × Nat × List Char)) :=
  let blanks := (text.takeWhile isSpace).length
  let body := text.drop blanks
  if text.isEmpty ∨ (blanks > 0 ∧ body.isEmpty) then .ok none
  else if blanks = 0 then .error position
  else
    let start := position + blanks
    let name := body.takeWhile fun c => !isSpace c && c != '='
    let afterName := body.drop name.length
    let gap := (afterName.takeWhile isSpace).length
    match afterName.drop gap with
    | '=' :: rest =>
      if name.isEmpty then .error start
      else
        let equals := start + name.length + gap
        let gap := (rest.takeWhile isSpace).length
        match rest.drop gap with
        | [] => .error (equals + 1 + gap)
        | q :: rest =>
          let quotePosition := equals + 1 + gap
          if !(q == '"' || q.toNat == 0x27) then .error quotePosition
          else
            let value := rest.takeWhile isSettingChar
            let valueEnd := quotePosition + 1 + value.length
            match rest.drop value.length with
            | c :: rest =>
              if c = q then
                .ok (some (⟨name, start, value, quotePosition + 1⟩, valueEnd + 1, rest))
              else .error valueEnd
            | [] => .error valueEnd
    | _ => .error (start + name.length + gap)

/-- What an XML declaration says. -/
structure Declaration where
  encoding : Option (List Char × Nat) := none
  standalone : Bool := false

/-- Reads what may follow the encoding. -/
def readStandalone (found : Option (Setting × Nat × List Char)) (d : Declaration) :
    Except Nat Declaration :=
  match found with
  | none => .ok d
  | some (setting, position, rest) =>
    if setting.name ≠ "standalone".toList then .error setting.position
    else
      let blanks := (rest.takeWhile isSpace).length
      let check := fun (standalone : Bool) =>
        if blanks = rest.length then .ok { d with standalone }
        else .error (position + blanks)
      if setting.value = "yes".toList then check true
      else if setting.value = "no".toList then check false
      else .error setting.valuePosition

/-- **Reads an XML declaration**, whose text starts at a position, or tells where it goes
wrong. -/
def readDeclaration (position : Nat) (text : List Char) : Except Nat Declaration := do
  let body := (text.drop 5).take (text.length - 7)
  match ← readSetting (position + 5) body with
  | none => .error (position + text.length - 2)
  | some (version, next, rest) =>
    if version.name ≠ "version".toList then .error version.position
    else match ← readSetting next rest with
      | none => return {}
      | some (setting, next, rest) =>
        if setting.name = "encoding".toList then
          if setting.value.head?.any Char.isAlpha then
            let d := { encoding := some (setting.value, setting.valuePosition) }
            readStandalone (← readSetting next rest) d
          else .error setting.valuePosition
        else readStandalone (some (setting, next, rest)) {}

/-! ## Encodings -/

/-- How bytes stand for characters. -/
inductive Encoding where
  | utf8
  | latin1
  | ascii
  | utf16 (big : Bool)
  deriving Repr, DecidableEq

/-- The character that stands for bytes that are none; it may not stand in a document. -/
def noCharacter : Char := Char.ofNat 0xFFFF

/-- The characters up to the first bytes that are none. -/
def untilMalformed : Nat → List UInt8 → List Char
  | _, [] => []
  | n + 1, _ :: rest => untilMalformed n rest
  | 0, b :: rest =>
    match Text.Utf8.head b rest with
    | .char c width => c :: untilMalformed (width - 1) rest
    | .bad _ _ => [noCharacter]

/-- The units of sixteen bits. -/
def units (big : Bool) : List UInt8 → List Nat
  | a :: b :: rest =>
    (if big then a.toNat * 256 + b.toNat else b.toNat * 256 + a.toNat) :: units big rest
  | _ => []

/-- The characters of units of sixteen bits. -/
def fromUnits : List Nat → List Char
  | [] => []
  | high :: low :: rest =>
    if 0xD800 ≤ high ∧ high ≤ 0xDBFF ∧ 0xDC00 ≤ low ∧ low ≤ 0xDFFF then
      Char.ofNat (0x10000 + (high - 0xD800) * 0x400 + (low - 0xDC00)) :: fromUnits rest
    else if 0xD800 ≤ high ∧ high ≤ 0xDFFF then [noCharacter]
    else Char.ofNat high :: fromUnits (low :: rest)
  | [unit] => [if 0xD800 ≤ unit ∧ unit ≤ 0xDFFF then noCharacter else Char.ofNat unit]

/-- The characters of a document. -/
def Encoding.decode : Encoding → List UInt8 → List Char
  | utf8, bytes => untilMalformed 0 bytes
  | latin1, bytes => bytes.map fun b => Char.ofNat b.toNat
  | ascii, bytes => bytes.map fun b => if b < 0x80 then Char.ofNat b.toNat else noCharacter
  | utf16 big, bytes => fromUnits (units big bytes)

/-- The encoding that the first bytes show. -/
def Encoding.detect : List UInt8 → Encoding
  | 0xFE :: 0xFF :: _ => .utf16 true
  | 0xFF :: 0xFE :: _ => .utf16 false
  | 0x3C :: 0x00 :: _ => .utf16 false
  | 0x00 :: 0x3C :: _ => .utf16 true
  | _ => .utf8

/-- Why an encoding cannot be used. -/
inductive EncodingProblem where
  /-- The bytes show that the encoding is another one. -/
  | contradicted
  /-- Nothing is known of the encoding. -/
  | unknown
  deriving Repr, DecidableEq

/-- The encoding with a name, for a document whose bytes show another one. -/
def Encoding.named (detected : Encoding) (name : List Char) : Except EncodingProblem Encoding :=
  let name := String.ofList (name.map Char.toUpper)
  let narrow := detected == .utf8
  if name = "UTF-8" then if narrow then .ok .utf8 else .error .contradicted
  else if name = "ISO-8859-1" then if narrow then .ok .latin1 else .error .contradicted
  else if name = "US-ASCII" then if narrow then .ok .ascii else .error .contradicted
  else if ["UTF-16", "UTF-16BE", "UTF-16LE"].contains name then
    if narrow then .error .contradicted else .ok detected
  else if ["LATIN-1", "LATIN1", "ISO8859-1", "L1"].contains name then .ok .latin1
  else if ["ASCII", "UTF8", "U8"].contains name then .ok .ascii
  else .error .unknown

/-! ## Documents -/

/-- Why a document cannot be read. -/
inductive DocumentError where
  /-- A fault in the text. -/
  | fault (f : Fault) (text : List Char)
  | unknownEncoding (name : List Char)
  deriving Repr

/-- The report of an error. -/
def DocumentError.message : DocumentError → String
  | fault f text => f.message text
  | unknownEncoding name => "unknown encoding: " ++ String.ofList name

/-- What stands before the root element. -/
structure Head where
  prolog : Prolog
  encoding : Option (List Char × Nat)
  /-- Where the root element starts, and the text from there on. -/
  position : Nat
  rest : List Char

/-- **Reads what stands before the root element**, token by token. -/
def readProlog : Nat → Prolog → Option (List Char × Nat) → Nat → List Char → Except Fault Head
  | 0, _, _, position, _ => .error ⟨.noElement, position⟩
  | _, _, _, position, [] => .error ⟨.noElement, position⟩
  | fuel + 1, p, encoding, position, c :: rest =>
    let text := c :: rest
    let take := fun (m : Markup) (length : Nat) =>
      let next := position + length
      let left := text.drop length
      match m with
      | .space =>
        let state := if p.state = .start then .beforeType else p.state
        readProlog fuel { p with state } encoding next left
      | .comment | .instruction .plain =>
        if p.state.allowsComments then
          let state := if p.state = .start then .beforeType else p.state
          readProlog fuel { p with state } encoding next left
        else .error ⟨.misplaced, position⟩
      | .instruction .declaration =>
        if p.state = .start then
          match readDeclaration position (text.take length) with
          | .error place => .error ⟨.malformedDeclaration, place⟩
          | .ok d =>
            let declared := { p.declared with standalone := d.standalone }
            readProlog fuel { p with state := .beforeType, declared } d.encoding next left
        else .error ⟨.misplacedDeclaration, position⟩
      | .rootStart =>
        if p.state = .start ∨ p.state = .beforeType ∨ p.state = .afterType then
          .ok ⟨p, encoding, position, text⟩
        else .error ⟨.misplaced, position⟩
      | _ => do
        let p ← p.step m (text.take length) position
        readProlog fuel p encoding next left
    if c.toNat = 0xFEFF ∧ position = 0 then readProlog fuel p encoding 1 rest
    else match scanMarkup c rest with
      | .cut => .error ⟨.unclosedToken, position⟩
      | .bad offset => .error ⟨.invalidToken, position + offset⟩
      | .token m length => take m length
      | .unfinished m length => take m length

/-- Checks what stands behind the root element: white space, comments and instructions. -/
def readEpilog : Nat → Nat → List Char → Except Fault Unit
  | 0, _, _ => .ok ()
  | _, _, [] => .ok ()
  | fuel + 1, position, c :: rest =>
    match scanMarkup c rest with
    | .cut => .error ⟨.unclosedToken, position⟩
    | .bad offset => .error ⟨.invalidToken, position + offset⟩
    | .unfinished _ _ => .error ⟨.junkAfterDocument, position⟩
    | .token m length =>
      match m with
      | .space | .comment | .instruction .plain =>
        readEpilog fuel (position + length) ((c :: rest).drop length)
      | _ => .error ⟨.junkAfterDocument, position⟩

/-- The attributes of the root element, given what stands before it. -/
def readBody (h : Head) : Except Fault (List Attribute) := do
  let (s, position, rest) ← readContent h.prolog.declared none (expansionFuel h.rest.length) {}
    h.position h.rest
  readEpilog rest.length.succ position rest
  return s.root.getD []

/-- Reads a document that is decoded one way. -/
def readDecoded (text : List Char) : Except Fault (List Attribute × Option (List Char × Nat)) := do
  let h ← readProlog text.length.succ {} none 0 text
  return (← readBody h, h.encoding)

/-- The encoding that the XML declaration at the start of a text names, and where. -/
def declaredEncoding? (text : List Char) : Option (List Char × Nat) :=
  let (offset, text) := match text with
    | c :: rest => if c.toNat = 0xFEFF then (1, rest) else (0, text)
    | [] => (0, [])
  match text with
  | c :: rest =>
    match scanMarkup c rest with
    | .token (.instruction .declaration) length =>
      match readDeclaration offset (text.take length) with
      | .ok d => d.encoding
      | .error _ => none
    | _ => none
  | [] => none

/-- **The attributes of the root element of a document.** -/
def rootAttributes (bytes : List UInt8) : Except DocumentError (List Attribute) :=
  let detected := Encoding.detect bytes
  let text := detected.decode bytes
  let read := fun (text : List Char) =>
    match readDecoded text with
    | .ok (attributes, _) => .ok attributes
    | .error f => .error (.fault f text)
  match declaredEncoding? text with
  | none => read text
  | some (name, position) =>
    match detected.named name with
    | .ok encoding => read (encoding.decode bytes)
    | .error .contradicted => .error (.fault ⟨.wrongEncoding, position⟩ text)
    | .error .unknown => .error (.unknownEncoding name)

end CodeAudit.Xml
