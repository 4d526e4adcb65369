import CodeAudit.Xml.Markup

/-!
# The document type declaration

What may stand before the root element, token by token, and what it declares: entities and default
values of attributes. Declarations behind a parameter entity that was not read do not count unless
the document stands alone.
-/

namespace CodeAudit.Xml

/-! ## Faults of XML documents -/

/-- What can be wrong with a document. -/
inductive Problem where
  | noElement
  | invalidToken
  | unclosedToken
  | mismatchedTag
  | duplicateAttribute
  | junkAfterDocument
  | unexpectedParameterEntity
  | undefinedEntity
  /-- An entity that is neither declared nor known to be missing. -/
  | skippedEntity (name : List Char)
  | recursiveEntity
  | unbalancedEntity
  | badCharacterNumber
  | binaryEntity
  | externalEntityInAttribute
  | misplacedDeclaration
  | wrongEncoding
  | unclosedData
  | unboundPrefix
  | undeclaredPrefix
  | malformedDeclaration
  | badPublicId
  | reservedXmlPrefix
  | reservedXmlnsPrefix
  | reservedNamespace
  | expansionLimit
  | misplaced
  deriving Repr, DecidableEq

/-- The wording of a problem. -/
def Problem.text : Problem → String
  | noElement => "no element found"
  | invalidToken => "not well-formed (invalid token)"
  | unclosedToken => "unclosed token"
  | mismatchedTag => "mismatched tag"
  | duplicateAttribute => "duplicate attribute"
  | junkAfterDocument => "junk after document element"
  | unexpectedParameterEntity => "illegal parameter entity reference"
  | undefinedEntity => "undefined entity"
  | skippedEntity name => "undefined entity &" ++ String.ofList name ++ ";"
  | recursiveEntity => "recursive entity reference"
  | unbalancedEntity => "asynchronous entity"
  | badCharacterNumber => "reference to invalid character number"
  | binaryEntity => "reference to binary entity"
  | externalEntityInAttribute => "reference to external entity in attribute"
  | misplacedDeclaration => "XML or text declaration not at start of entity"
  | wrongEncoding => "encoding specified in XML declaration is incorrect"
  | unclosedData => "unclosed CDATA section"
  | unboundPrefix => "unbound prefix"
  | undeclaredPrefix => "must not undeclare prefix"
  | malformedDeclaration => "XML declaration not well-formed"
  | badPublicId => "illegal character(s) in public id"
  | reservedXmlPrefix =>
    "reserved prefix (xml) must not be undeclared or bound to another namespace name"
  | reservedXmlnsPrefix => "reserved prefix (xmlns) must not be declared or undeclared"
  | reservedNamespace => "prefix must not be bound to one of the reserved namespace names"
  | expansionLimit => "limit on input amplification factor (from DTD and entities) breached"
  | misplaced => "syntax error"

/-- A problem and the place of it, as the number of characters before. -/
structure Fault where
  problem : Problem
  position : Nat
  deriving Repr, DecidableEq

/-- The line, from one, and the column, from zero, behind a text. -/
def placeAfter (line column : Nat) : List Char → Nat × Nat
  | [] => (line, column)
  | '\r' :: '\n' :: rest => placeAfter (line + 1) 0 rest
  | c :: rest =>
    if c = '\n' ∨ c = '\r' then placeAfter (line + 1) 0 rest
    else placeAfter line (column + 1) rest

/-- The report of a fault in a text. -/
def Fault.message (f : Fault) (text : List Char) : String :=
  let (line, column) := placeAfter 1 0 (text.take f.position)
  s!"{f.problem.text}: line {line}, column {column}"

/-! ## The document type declaration -/

/-- What an entity stands for. -/
inductive Entity where
  /-- A text of its own. -/
  | text (value : List Char)
  /-- Something elsewhere. -/
  | external
  /-- Something elsewhere that is no XML. -/
  | binary
  deriving Repr, DecidableEq

/-- A declared attribute: whether its value is plain text, and the value if it is left out. -/
structure AttributeDecl where
  element : List Char
  name : List Char
  plain : Bool
  default : Option (List Char)
  deriving Repr, DecidableEq

/-- What is declared. -/
structure DocType where
  entities : List (List Char × Entity) := []
  attributes : List AttributeDecl := []
  /-- Whether something outside the document may declare more. -/
  extended : Bool := false
  /-- Whether the document says that it stands alone. -/
  standalone : Bool := false
  /-- Whether declarations still count. -/
  counting : Bool := true
  deriving Repr

/-- The entity of a name. -/
def DocType.entity? (d : DocType) (name : List Char) : Option Entity :=
  (d.entities.find? (·.1 == name)).map (·.2)

/-- Whether an entity that is not declared is a fault. -/
def DocType.closed (d : DocType) : Bool := !d.extended || d.standalone

/-- Declares an entity, unless it is declared already or declarations do not count. -/
def DocType.addEntity (d : DocType) (name : List Char) (e : Entity) : DocType :=
  if d.counting && (d.entity? name).isNone then
    { d with entities := d.entities ++ [(name, e)] }
  else d

/-- Declares an attribute of an element, unless it is declared already. -/
def DocType.addAttribute (d : DocType) (a : AttributeDecl) : DocType :=
  if d.counting && !d.attributes.any (fun b => b.element == a.element && b.name == a.name) then
    { d with attributes := d.attributes ++ [a] }
  else d

/-- The characters that predefined entities stand for. -/
def predefined? (name : List Char) : Option Char :=
  if name = "lt".toList then some '<'
  else if name = "gt".toList then some '>'
  else if name = "amp".toList then some '&'
  else if name = "quot".toList then some '"'
  else if name = "apos".toList then some (Char.ofNat 0x27)
  else none

/-! ## Values -/

/-- Where faults in a value are reported: character by character, or all at one place if the value
is not itself part of the text. -/
inductive ValuePlace where
  | within (start : Nat)
  | behind (place : Nat)
  deriving Repr

/-- The position of a character of a value. -/
def ValuePlace.position (p : ValuePlace) (offset : Nat) : Nat :=
  match p with
  | within start => start + offset
  | behind place => place

/-- **The value of an attribute**: references are replaced, and every kind of white space becomes a
space. `place` says where a character of the text stands, `token` where the token starts that has
the value, and `used` are the entities being replaced. Each step passes a character or enters an
entity. -/
def expandValue (d : DocType) (token : Nat) :
    Nat → List (List Char) → ValuePlace → Nat → List Char → Except Fault (List Char)
  | 0, _, _, _, _ => .error ⟨.expansionLimit, token⟩
  | _, _, _, _, [] => .ok []
  | fuel + 1, used, place, n, '&' :: rest =>
    match scanReference id 1 rest with
    | .token .character length =>
      match characterNumber? (('&' :: rest).take length) with
      | none => .error ⟨.badCharacterNumber, place.position n⟩
      | some c => do
        return c :: (← expandValue d token fuel used place (n + length)
          (rest.drop (length - 1)))
    | .token .entity length => do
      let name := rest.take (length - 2)
      let value ← match predefined? name with
        | some c => pure [c]
        | none =>
          match d.entity? name with
          | none => if d.closed then .error ⟨.undefinedEntity, token⟩ else pure []
          | some entity =>
            if used.contains name then .error ⟨.recursiveEntity, place.position n⟩
            else match entity with
              | .binary => .error ⟨.binaryEntity, place.position n⟩
              | .external => .error ⟨.externalEntityInAttribute, place.position n⟩
              | .text text => expandValue d token fuel (name :: used) (.behind token) 0 text
      return value ++ (← expandValue d token fuel used place (n + length)
        (rest.drop (length - 1)))
    | .bad offset => .error ⟨.invalidToken, place.position (n + offset)⟩
    | _ => .error ⟨.invalidToken, place.position n⟩
  | fuel + 1, used, place, n, '\r' :: '\n' :: rest => do
    return ' ' :: (← expandValue d token fuel used place (n + 2) rest)
  | fuel + 1, used, place, n, c :: rest =>
    if c = '<' ∨ ¬ isChar c then .error ⟨.invalidToken, place.position n⟩
    else do
      return (if isSpace c then ' ' else c) :: (← expandValue d token fuel used place (n + 1) rest)

/-- A value whose spaces only divide words. -/
def tokenized (value : List Char) : List Char :=
  [' '].intercalate ((Text.pieces ' ' value).filter (!·.isEmpty))

/-- The most steps in which a value is expanded: far more than its text has characters. -/
def expansionFuel (length : Nat) : Nat := 8 * 1024 * 1024 + 100 * length

/-- The text of an entity: character references are replaced, and line ends become line feeds.
Faults are at a position. -/
def entityText (position : Nat) : Nat → List Char → Except Fault (List Char)
  | _, [] => .ok []
  | 0, _ => .ok []
  | fuel + 1, c :: rest =>
    if c = '%' then
      match scanPercent rest with
      | .token .parameterRef _ => .error ⟨.unexpectedParameterEntity, position⟩
      | .bad offset => .error ⟨.invalidToken, position + offset⟩
      | .token _ length => .error ⟨.invalidToken, position + length⟩
      | _ => .error ⟨.invalidToken, position⟩
    else if c = '&' then
      match scanReference id 1 rest with
      | .token .character length =>
        match characterNumber? (('&' :: rest).take length) with
        | none => .error ⟨.badCharacterNumber, position⟩
        | some c => do
          return c :: (← entityText (position + length) fuel (rest.drop (length - 1)))
      | .token .entity length => do
        return '&' :: rest.take (length - 1) ++
          (← entityText (position + length) fuel (rest.drop (length - 1)))
      | .bad offset => .error ⟨.invalidToken, position + offset⟩
      | _ => .error ⟨.invalidToken, position⟩
    else if c = '\r' then do
      let extra := if rest.head? = some '\n' then 1 else 0
      return '\n' :: (← entityText (position + 1 + extra) fuel (rest.drop extra))
    else do
      return c :: (← entityText (position + 1) fuel rest)

/-! ## Declarations -/

/-- What may come next before the root element. -/
inductive PrologState where
  /-- Nothing has been read. -/
  | start
  /-- A document type may still be declared. -/
  | beforeType
  | afterType
  | typeName
  | typeId
  | typePublic
  | typeSystem
  | typeSubset
  | typeEnd
  /-- Between declarations. -/
  | subset
  | entityName
  | parameterName
  | entityValue
  | entityPublic
  | entitySystem
  | entityEnd
  | entityFormat
  | parameterValue
  | parameterPublic
  | parameterSystem
  | parameterEnd
  | formatName
  | formatId
  | formatPublic
  | formatSystem
  | formatSystemMaybe
  | listElement
  | listAttribute
  | listType
  | listChoice
  | listChoiceMore
  | listFormats
  | listFormat
  | listFormatMore
  | listDefault
  | listFixed
  | elementName
  | elementContent
  | groupFirst
  | mixedMore
  | mixedName
  | mixedEnd
  | groupItem
  | groupMore
  /-- Only the end of a declaration may come. -/
  | declEnd
  deriving Repr, DecidableEq

/-- How the items of a group are divided. -/
inductive Divider where
  | undecided
  | sequence
  | choice
  deriving Repr, DecidableEq

/-- The state before the root element: what may come next, what has been declared, and the parts of
the declaration being read. -/
structure Prolog where
  state : PrologState := .start
  declared : DocType := {}
  /-- Whether the type declaration names something outside. -/
  hasSystemId : Bool := false
  /-- The name of the entity being declared. -/
  entity : List Char := []
  /-- The element and the attribute being declared, and whether its value is plain text. -/
  element : List Char := []
  attName : List Char := []
  plain : Bool := true
  /-- The open groups, the innermost first. -/
  groups : List Divider := []
  deriving Repr

/-- The types of attributes. -/
def attributeTypes : List String :=
  ["CDATA", "ID", "IDREF", "IDREFS", "ENTITY", "ENTITIES", "NMTOKEN", "NMTOKENS"]

/-- Whether a character may stand in a public identifier. -/
def isPublicIdChar (c : Char) : Bool :=
  c.isAlphanum || " \r\n-()+,./:=?;!*#@$_%".toList.contains c || c.toNat == 0x27

/-- The first character of a public identifier that may not stand there. -/
def badPublicId? (text : List Char) : Option Nat :=
  let body := (text.drop 1).dropLast
  let good := (body.takeWhile isPublicIdChar).length
  if good = body.length then none else some (good + 1)

/-- The prolog in another state. -/
def Prolog.to (p : Prolog) (s : PrologState) : Prolog := { p with state := s }

/-- Ends the innermost group. -/
def Prolog.closeGroup (p : Prolog) : Prolog :=
  let groups := p.groups.drop 1
  { p with groups, state := if groups.isEmpty then .declEnd else .groupMore }

/-- Divides the items of the innermost group. -/
def Prolog.divide (p : Prolog) (d : Divider) : Option Prolog :=
  match p.groups with
  | current :: rest =>
    if current = .undecided ∨ current = d then
      some { p with groups := d :: rest, state := .groupItem }
    else none
  | [] => none

/-- Reads one token of the prolog, with its text and position. White space, comments and
instructions between declarations are not handed to it. -/
def Prolog.step (p : Prolog) (m : Markup) (text : List Char) (position : Nat) :
    Except Fault Prolog :=
  let wrong : Except Fault Prolog := .error ⟨match m with
    | .parameterRef => .unexpectedParameterEntity
    | .instruction .declaration => .misplacedDeclaration
    | _ => .misplaced, position⟩
  let word := String.ofList text
  let go := fun (s : PrologState) => (Except.ok (p.to s) : Except Fault Prolog)
  let isName := m == .name || m == .qualifiedName
  let inner := (text.drop 1).dropLast
  let publicId := fun (s : PrologState) =>
    match badPublicId? text with
    | some offset => (.error ⟨.badPublicId, position + offset⟩ : Except Fault Prolog)
    | none => go s
  let declare := fun (e : Entity) (s : PrologState) =>
    (.ok { p with declared := p.declared.addEntity p.entity e, state := s } :
      Except Fault Prolog)
  let addDefault := fun (value : Option (List Char)) =>
    (.ok { p with
      declared := p.declared.addAttribute ⟨p.element, p.attName, p.plain, value⟩
      state := .listAttribute } : Except Fault Prolog)
  let defaultValue := fun (_ : Unit) => (do
    if p.declared.counting then
      let value ← expandValue p.declared position (expansionFuel inner.length) []
        (.within (position + 1)) 0 inner
      addDefault (some (if p.plain then value else tokenized value))
    else go .listAttribute : Except Fault Prolog)
  match p.state, m with
  | .start, .declStart | .beforeType, .declStart =>
    if word = "<!DOCTYPE" then go .typeName else wrong
  | .typeName, _ => if isName then go .typeId else wrong
  | .typeId, .openBracket | .typeSubset, .openBracket => go .subset
  | .typeId, .declEnd | .typeSubset, .declEnd | .typeEnd, .declEnd =>
    .ok { p with
      state := .afterType
      declared := if p.hasSystemId then { p.declared with extended := true } else p.declared }
  | .typeId, .name =>
    if word = "SYSTEM" then go .typeSystem
    else if word = "PUBLIC" then go .typePublic
    else wrong
  | .typePublic, .literal => publicId .typeSystem
  | .typeSystem, .literal => .ok { p with state := .typeSubset, hasSystemId := true }
  | .subset, .declStart =>
    if word = "<!ENTITY" then go .entityName
    else if word = "<!ATTLIST" then go .listElement
    else if word = "<!ELEMENT" then go .elementName
    else if word = "<!NOTATION" then go .formatName
    else wrong
  | .subset, .parameterRef =>
    .ok { p with declared :=
      { p.declared with extended := true, counting := p.declared.standalone } }
  | .subset, .closeBracket => go .typeEnd
  | .entityName, .percent => go .parameterName
  | .entityName, .name => .ok { p with entity := text, state := .entityValue }
  | .parameterName, .name => go .parameterValue
  | .entityValue, .name =>
    if word = "SYSTEM" then go .entitySystem
    else if word = "PUBLIC" then go .entityPublic
    else wrong
  | .entityValue, .literal => do
    let value ← entityText (position + 1) inner.length inner
    declare (.text value) .declEnd
  | .entityPublic, .literal => publicId .entitySystem
  | .entitySystem, .literal => go .entityEnd
  | .entityEnd, .declEnd => declare .external .subset
  | .entityEnd, .name => if word = "NDATA" then go .entityFormat else wrong
  | .entityFormat, .name => declare .binary .declEnd
  | .parameterValue, .name =>
    if word = "SYSTEM" then go .parameterSystem
    else if word = "PUBLIC" then go .parameterPublic
    else wrong
  | .parameterValue, .literal => do
    let _ ← entityText (position + 1) inner.length inner
    go .declEnd
  | .parameterPublic, .literal => publicId .parameterSystem
  | .parameterSystem, .literal => go .parameterEnd
  | .parameterEnd, .declEnd => go .subset
  | .formatName, .name => go .formatId
  | .formatId, .name =>
    if word = "SYSTEM" then go .formatSystem
    else if word = "PUBLIC" then go .formatPublic
    else wrong
  | .formatPublic, .literal => publicId .formatSystemMaybe
  | .formatSystem, .literal => go .declEnd
  | .formatSystemMaybe, .literal => go .declEnd
  | .formatSystemMaybe, .declEnd => go .subset
  | .listElement, _ =>
    if isName then .ok { p with element := text, state := .listAttribute } else wrong
  | .listAttribute, .declEnd => go .subset
  | .listAttribute, _ =>
    if isName then .ok { p with attName := text, plain := false, state := .listType } else wrong
  | .listType, .name =>
    if attributeTypes.contains word then
      .ok { p with plain := word == "CDATA", state := .listDefault }
    else if word = "NOTATION" then go .listFormats
    else wrong
  | .listType, .openParen => go .listChoice
  | .listChoice, _ => if isName || m == .nameToken then go .listChoiceMore else wrong
  | .listChoiceMore, .closeParen => go .listDefault
  | .listChoiceMore, .bar => go .listChoice
  | .listFormats, .openParen => go .listFormat
  | .listFormat, .name => go .listFormatMore
  | .listFormatMore, .closeParen => go .listDefault
  | .listFormatMore, .bar => go .listFormat
  | .listDefault, .hashName =>
    if word = "#IMPLIED" ∨ word = "#REQUIRED" then addDefault none
    else if word = "#FIXED" then go .listFixed
    else wrong
  | .listDefault, .literal => defaultValue ()
  | .listFixed, .literal => defaultValue ()
  | .elementName, _ => if isName then go .elementContent else wrong
  | .elementContent, .name =>
    if word = "EMPTY" ∨ word = "ANY" then go .declEnd else wrong
  | .elementContent, .openParen => .ok { p with groups := [.undecided], state := .groupFirst }
  | .groupFirst, .hashName => if word = "#PCDATA" then go .mixedMore else wrong
  | .groupFirst, .openParen | .groupItem, .openParen =>
    .ok { p with groups := .undecided :: p.groups, state := .groupItem }
  | .groupFirst, _ | .groupItem, _ =>
    if isName || m == .nameRepeated then go .groupMore else wrong
  | .mixedMore, .closeParen | .mixedMore, .closeParenStar => go .declEnd
  | .mixedMore, .bar => go .mixedName
  | .mixedName, _ => if isName then go .mixedEnd else wrong
  | .mixedEnd, .closeParenStar => go .declEnd
  | .mixedEnd, .bar => go .mixedName
  | .groupMore, .closeParen | .groupMore, .closeParenStar | .groupMore, .closeParenRepeated =>
    .ok p.closeGroup
  | .groupMore, .comma => (p.divide .sequence).elim wrong .ok
  | .groupMore, .bar => (p.divide .choice).elim wrong .ok
  | .declEnd, .declEnd => go .subset
  | _, _ => wrong

/-- Whether comments and instructions may stand in a state. -/
def PrologState.allowsComments : PrologState → Bool
  | start | beforeType | afterType | subset => true
  | _ => false

end CodeAudit.Xml
