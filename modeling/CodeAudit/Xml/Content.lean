import CodeAudit.Xml.DocType
import CodeAudit.Xml.Tag

/-!
# The root element

The content of a document from its root element on: tags match, attributes are distinct, prefixes
are bound, and references stand for something. Of all this only the attributes of the root element
are kept.
-/

namespace CodeAudit.Xml

/-! ## Namespaces -/

/-- Bindings of prefixes, the latest first. -/
abbrev Bindings := List (List Char × List Char)

/-- The namespace of the prefix `xml`. -/
def xmlNamespace : List Char := "http://www.w3.org/XML/1998/namespace".toList

/-- The namespace of the prefix `xmlns`. -/
def xmlnsNamespace : List Char := "http://www.w3.org/2000/xmlns/".toList

/-- The bindings of every document. -/
def Bindings.start : Bindings := [("xml".toList, xmlNamespace)]

/-- The namespace of a prefix. -/
def namespaceOf? (b : Bindings) (head : List Char) : Option (List Char) :=
  (b.find? (·.1 == head)).map (·.2)

/-- A name in two parts: its prefix, if it has one, and the rest. -/
def splitName (name : List Char) : Option (List Char) × List Char :=
  let head := name.takeWhile (· ≠ ':')
  if head.length = name.length then (none, name) else (some head, name.drop (head.length + 1))

/-- The prefix that an attribute binds, empty for the default; none if it binds nothing. -/
def boundPrefix? (name : List Char) : Option (List Char) :=
  match splitName name with
  | (none, n) => if n = "xmlns".toList then some [] else none
  | (some head, n) => if head = "xmlns".toList then some n else none

/-- Why a prefix may not be bound to a namespace. -/
def bindingProblem? (head uri : List Char) : Option Problem :=
  let mustBeXml := head = "xml".toList
  let isXml := uri = xmlNamespace
  if uri = [] ∧ head ≠ [] then some .undeclaredPrefix
  else if head = "xmlns".toList then some .reservedXmlnsPrefix
  else if uri.any (·.toNat == 0x7d) then some .misplaced
  else if mustBeXml ∧ ¬ isXml then some .reservedXmlPrefix
  else if ¬ mustBeXml ∧ isXml then some .reservedNamespace
  else if uri = xmlnsNamespace then some .reservedNamespace
  else none

/-! ## Attributes -/

/-- An attribute with its value. -/
structure Attribute where
  name : List Char
  value : List Char
  deriving Repr, DecidableEq

/-- Reads attributes one after another: each is new, its value can be expanded, and if it binds a
prefix it may do so. -/
def readAttributes (d : DocType) (element : List Char) (token : Nat) (internal : Bool) :
    List (List Char) → Bindings → List RawAttribute → Except Fault (List Attribute × Bindings)
  | _, b, [] => .ok ([], b)
  | seen, b, a :: rest => do
    let place := if internal then ValuePlace.behind token else .within a.valuePosition
    if seen.contains a.name then
      .error ⟨.duplicateAttribute, if internal then token else a.position⟩
    let value ← expandValue d token (expansionFuel a.value.length) [] place 0 a.value
    let declared := d.attributes.find? fun x => x.element == element && x.name == a.name
    let plain := declared.all (·.plain)
    let value := if plain then value else tokenized value
    let seen := a.name :: seen
    match boundPrefix? a.name with
    | some head =>
      match bindingProblem? head value with
      | some problem => .error ⟨problem, token⟩
      | none => readAttributes d element token internal seen ((head, value) :: b) rest
    | none =>
      let (more, b) ← readAttributes d element token internal seen b rest
      return (⟨a.name, value⟩ :: more, b)

/-- Adds the declared attributes of an element that are left out and have a value. -/
def addDefaults (given : List (List Char)) (token : Nat) :
    List AttributeDecl → Bindings → Except Fault (List Attribute × Bindings)
  | [], b => .ok ([], b)
  | a :: rest, b =>
    match a.default with
    | none => addDefaults given token rest b
    | some value =>
      if given.contains a.name then addDefaults given token rest b
      else match boundPrefix? a.name with
        | some head =>
          match bindingProblem? head value with
          | some problem => .error ⟨problem, token⟩
          | none => addDefaults given token rest ((head, value) :: b)
        | none => do
          let (more, b) ← addDefaults given token rest b
          return (⟨a.name, value⟩ :: more, b)

/-- Replaces prefixes by namespaces: each is bound, and the names stay distinct. -/
def resolveAttributes (b : Bindings) (token : Nat) :
    List (List Char × List Char) → List Attribute → Except Fault (List Attribute)
  | _, [] => .ok []
  | seen, a :: rest =>
    match splitName a.name with
    | (none, _) => do return a :: (← resolveAttributes b token seen rest)
    | (some head, name) =>
      match namespaceOf? b head with
      | none => .error ⟨.unboundPrefix, token⟩
      | some uri =>
        if seen.contains (uri, name) then .error ⟨.duplicateAttribute, token⟩
        else do
          let full := Char.ofNat 0x7b :: uri ++ Char.ofNat 0x7d :: name
          return ⟨full, a.value⟩ :: (← resolveAttributes b token ((uri, name) :: seen) rest)

/-- **The attributes and bindings of an element**, given the text of its start tag and where it
starts. -/
def elementAttributes (d : DocType) (b : Bindings) (tag : List Char) (token : Nat)
    (internal : Bool) : Except Fault (List Attribute × Bindings) := do
  let name := rawName (tag.drop 1)
  let start := 1 + name.length
  let raw := rawAttributes tag.length (token + start) (tag.drop start)
  let (attributes, b) ← readAttributes d name token internal [] b raw
  let (more, b) ← addDefaults (raw.map (·.name)) token (d.attributes.filter (·.element == name)) b
  let attributes ← resolveAttributes b token [] (attributes ++ more)
  match (splitName name).1 with
  | some head =>
    if (namespaceOf? b head).isSome then return (attributes, b)
    else .error ⟨.unboundPrefix, token⟩
  | none => return (attributes, b)

/-! ## Content -/

/-- Kinds of tokens within the root element. -/
inductive Piece where
  /-- A start tag; whether the element is empty. -/
  | start (empty : Bool)
  | stop
  | comment
  | instruction (kind : Instruction)
  | dataStart
  | reference (kind : Reference)
  | character
  deriving Repr, DecidableEq

/-- Scans the opening of a data section from behind `<![` on. -/
def scanDataStart (expected : List Char) (n : Nat) : List Char → Scan Piece
  | [] => .cut
  | c :: rest =>
    match expected with
    | [] => .token .dataStart n
    | e :: expected =>
      if c ≠ e then .bad n
      else if expected.isEmpty then .token .dataStart (n + 1)
      else scanDataStart expected (n + 1) rest

/-- The token at the front of content that is not empty. -/
def scanPiece (c : Char) (rest : List Char) : Scan Piece :=
  match c with
  | '<' =>
    match rest with
    | [] => .cut
    | '!' :: rest =>
      match rest with
      | [] => .cut
      | '-' :: rest =>
        match rest with
        | [] => .cut
        | '-' :: rest => scanComment .comment 4 rest
        | _ => .bad 3
      | '[' :: rest => if rest.length < 6 then .cut else scanDataStart "CDATA[".toList 3 rest
      | _ => .bad 2
    | '?' :: rest => scanTarget .instruction 2 [] rest
    | '/' :: rest => scanEndTag .stop 2 rest
    | d :: rest => if isNameStart d then scanTag .start (.name false) 2 rest else .bad 1
  | '&' => scanReference .reference 1 rest
  | ']' =>
    match rest with
    | ']' :: '>' :: _ => .bad 2
    | _ => .token .character 1
  | _ => if isChar c then .token .character 1 else .bad 0

/-- The length of a data section up to and with its end, or where it goes wrong. -/
def scanData (n : Nat) : List Char → Scan Unit
  | [] => .cut
  | ']' :: ']' :: '>' :: _ => .token () (n + 3)
  | c :: rest => if isChar c then scanData (n + 1) rest else .bad n

/-- Where an unclosed data section is reported: at its end, or at the brackets there. -/
def unclosedDataOffset (text : List Char) : Nat :=
  text.length - min 2 (text.reverse.takeWhile (· == ']')).length

/-- An element that is open: its name and the bindings outside of it. -/
structure OpenElement where
  name : List Char
  outer : Bindings
  deriving Repr

/-- The state within the root element: the open elements, the innermost first, the bindings in
force, the attributes of the root element, and the entities being replaced. -/
structure Inside where
  stack : List OpenElement := []
  bindings : Bindings := Bindings.start
  root : Option (List Attribute) := none
  used : List (List Char) := []
  deriving Repr

/-- Opens an element. -/
def Inside.push (s : Inside) (d : DocType) (tag : List Char) (token : Nat) (internal empty : Bool) :
    Except Fault Inside := do
  let (attributes, bindings) ← elementAttributes d s.bindings tag token internal
  let root := some (s.root.getD attributes)
  if empty then return { s with root }
  else return { s with root, bindings, stack := ⟨rawName (tag.drop 1), s.bindings⟩ :: s.stack }

/-- **Reads content** from a position on until the root element is closed, or, for the text of an
entity, until the text ends with as many elements open as before. For such a text `entity` is the
place of the reference and the number of open elements. What is left behind the root element is
handed back with its position. -/
def readContent (d : DocType) (entity : Option (Nat × Nat)) :
    Nat → Inside → Nat → List Char → Except Fault (Inside × Nat × List Char)
  | 0, _, position, _ => .error ⟨.expansionLimit, position⟩
  | fuel + 1, s, position, text =>
    let place := fun (n : Nat) => (entity.map (·.1)).getD n
    match text with
    | [] =>
      match entity with
      | none => .error ⟨.noElement, position⟩
      | some (_, depth) =>
        if s.stack.length = depth then .ok (s, position, [])
        else .error ⟨.unbalancedEntity, place position⟩
    | c :: rest =>
      match scanPiece c rest with
      | .cut => .error ⟨.unclosedToken, place position⟩
      | .unfinished _ _ => .error ⟨.unclosedToken, place position⟩
      | .bad offset => .error ⟨.invalidToken, place (position + offset)⟩
      | .token piece length =>
        let next := position + length
        let left := text.drop length
        match piece with
        | .start empty => do
          let s ← s.push d (text.take length) (place position) entity.isSome empty
          if s.stack.isEmpty then return (s, next, left)
          readContent d entity fuel s next left
        | .stop =>
          if (entity.map (·.2)).any (· == s.stack.length) then
            .error ⟨.unbalancedEntity, place position⟩
          else match s.stack with
            | [] => .error ⟨.mismatchedTag, place (position + 2)⟩
            | e :: stack =>
              if rawName (text.drop 2) ≠ e.name then
                .error ⟨.mismatchedTag, place (position + 2)⟩
              else
                let s := { s with stack, bindings := e.outer }
                if stack.isEmpty then .ok (s, next, left)
                else readContent d entity fuel s next left
        | .comment => readContent d entity fuel s next left
        | .instruction .plain => readContent d entity fuel s next left
        | .instruction .declaration => .error ⟨.misplacedDeclaration, place position⟩
        | .dataStart =>
          match scanData 0 left with
          | .token _ more => readContent d entity fuel s (next + more) (left.drop more)
          | .bad offset => .error ⟨.invalidToken, place (next + offset)⟩
          | _ => .error ⟨.unclosedData, place (next + unclosedDataOffset left)⟩
        | .reference .character =>
          if (characterNumber? (text.take length)).isSome then
            readContent d entity fuel s next left
          else .error ⟨.badCharacterNumber, place position⟩
        | .reference .entity =>
          let name := (text.drop 1).take (length - 2)
          if (predefined? name).isSome then readContent d entity fuel s next left
          else match d.entity? name with
            | none =>
              .error ⟨if d.closed then .undefinedEntity else .skippedEntity name, place position⟩
            | some .external => .error ⟨.skippedEntity name, place position⟩
            | some .binary => .error ⟨.binaryEntity, place position⟩
            | some (.text value) =>
              if s.used.contains name then .error ⟨.recursiveEntity, place position⟩
              else do
                let (inner, _, _) ← readContent d (some (place position, s.stack.length)) fuel
                  { s with used := name :: s.used } position value
                readContent d entity fuel { inner with used := s.used } next left
        | .character =>
          if c = '\r' ∧ rest = [] ∧ entity.isNone then .error ⟨.noElement, position⟩
          else readContent d entity fuel s next left

end CodeAudit.Xml
