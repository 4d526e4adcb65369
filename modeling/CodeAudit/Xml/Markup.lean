import CodeAudit.Xml.Scan

/-!
# Tokens outside the root element

The tokens before the root element, in the document type declaration and behind the root element.
-/

namespace CodeAudit.Xml

/-- Kinds of tokens outside the root element. -/
inductive Markup where
  | space
  | comment
  | instruction (kind : Instruction)
  /-- `<!` and a keyword. -/
  | declStart
  | declEnd
  /-- The start of the root element. -/
  | rootStart
  | name
  /-- A name of two parts. -/
  | qualifiedName
  /-- Name characters that are no name. -/
  | nameToken
  /-- A name with a sign of repetition. -/
  | nameRepeated
  | literal
  | openBracket
  | closeBracket
  | openParen
  | closeParen
  | closeParenStar
  /-- A closing parenthesis with another sign of repetition. -/
  | closeParenRepeated
  | comma
  | bar
  | percent
  | parameterRef
  /-- A name behind a hash. -/
  | hashName
  | conditionStart
  | conditionEnd
  deriving Repr, DecidableEq

/-- Scans a literal from behind its opening quote on. -/
def scanLiteral (quote : Char) (n : Nat) : List Char → Scan Markup
  | [] => .cut
  | c :: rest =>
    if c = quote then
      match rest with
      | [] => .unfinished .literal (n + 1)
      | d :: _ =>
        if isSpace d || d == '>' || d == '%' || d == '[' then .token .literal (n + 1)
        else .bad (n + 1)
    else if isChar c then scanLiteral quote (n + 1) rest
    else .bad n

/-- Scans the keyword of a declaration. -/
def scanKeyword (n : Nat) : List Char → Scan Markup
  | [] => .cut
  | '%' :: rest =>
    match rest with
    | [] => .cut
    | d :: _ => if isSpace d || d == '%' then .bad n else .token .declStart n
  | c :: rest =>
    if isSpace c then .token .declStart n
    else if c.isAlpha || c == '_' then scanKeyword (n + 1) rest
    else .bad n

/-- Scans from behind `<!` on. -/
def scanDeclaration : List Char → Scan Markup
  | [] => .cut
  | '-' :: rest =>
    match rest with
    | [] => .cut
    | '-' :: rest => scanComment .comment 4 rest
    | _ => .bad 3
  | '[' :: _ => .token .conditionStart 3
  | c :: rest => if c.isAlpha || c == '_' then scanKeyword 3 rest else .bad 2

/-- Whether a name may end before a character. -/
def endsName (c : Char) : Bool := isSpace c || ">),|[%".toList.contains c

/-- Scans a name or name token, with its kind so far. -/
def scanWord (kind : Markup) (n : Nat) : List Char → Scan Markup
  | [] => .unfinished kind n
  | c :: rest =>
    if isNameChar c then scanWord kind (n + 1) rest
    else if c = ':' then
      if kind = .name ∧ rest = [] then .cut
      else scanWord (if kind = .name ∧ rest.head?.any isNameChar then .qualifiedName
        else .nameToken) (n + 1) rest
    else if endsName c then .token kind n
    else if c == '+' || c == '*' || c == '?' then
      if kind = .nameToken then .bad n else .token .nameRepeated (n + 1)
    else .bad n

/-- Scans from behind a percent sign on. -/
def scanPercent : List Char → Scan Markup
  | [] => .cut
  | c :: rest =>
    if isSpace c || c == '%' then .token .percent 1
    else if isNameStart c then scanNameRef .parameterRef 2 rest
    else .bad 1

/-- Scans the rest of a name behind a hash. -/
def scanHashName (n : Nat) : List Char → Scan Markup
  | [] => .unfinished .hashName n
  | c :: rest =>
    if isNameChar c then scanHashName (n + 1) rest
    else if isSpace c || ")>%|".toList.contains c then .token .hashName n
    else .bad n

/-- Scans from behind a closing parenthesis on. -/
def scanCloseParen : List Char → Scan Markup
  | [] => .cut
  | '*' :: _ => .token .closeParenStar 2
  | '?' :: _ => .token .closeParenRepeated 2
  | '+' :: _ => .token .closeParenRepeated 2
  | c :: _ => if isSpace c || ">,|)".toList.contains c then .token .closeParen 1 else .bad 1

/-- **The token at the front of a text** that is not empty. -/
def scanMarkup (c : Char) (rest : List Char) : Scan Markup :=
  if isSpace c then .token .space (rest.takeWhile isSpace).length.succ
  else if c == '"' || c.toNat == 0x27 then scanLiteral c 1 rest
  else match c with
    | '<' =>
      match rest with
      | [] => .cut
      | '!' :: rest => scanDeclaration rest
      | '?' :: rest => scanTarget .instruction 2 [] rest
      | d :: _ => if isNameStart d then .token .rootStart 0 else .bad 1
    | '%' => scanPercent rest
    | ',' => .token .comma 1
    | '[' => .token .openBracket 1
    | ']' =>
      match rest with
      | [] => .cut
      | ']' :: [] => .cut
      | ']' :: '>' :: _ => .token .conditionEnd 3
      | _ => .token .closeBracket 1
    | '(' => .token .openParen 1
    | ')' => scanCloseParen rest
    | '|' => .token .bar 1
    | '>' => .token .declEnd 1
    | '#' =>
      match rest with
      | [] => .cut
      | d :: rest => if isNameStart d then scanHashName 2 rest else .bad 1
    | _ =>
      if isNameStart c then scanWord .name 1 rest
      else if isNameChar c || c == ':' then scanWord .nameToken 1 rest
      else .bad 0

end CodeAudit.Xml
