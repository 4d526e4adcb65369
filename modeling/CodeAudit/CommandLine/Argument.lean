import CodeAudit.Text.Identifier
import CodeAudit.Text.Quoted

/-!
# Arguments of a command

An argument is an option, with its value in the same argument or in the next one, or a plain
argument. Long options may be cut short as long as only one fits; after two dashes alone every
argument is plain. A negative number and a text with a blank that fits no option are plain too.

The arguments are first told apart, each by itself, and then read from left to right. What the
reading gives is a list of items in the order in which they take effect, and the fault, if any, at
which it stopped.
-/

namespace CodeAudit.CommandLine

/-- An option: what it stands for, its names, and whether it takes a value. Options with a single
dash take none. -/
structure Flag (α : Type) where
  key : α
  names : List String
  takesValue : Bool
  deriving Repr

/-- The names of an option in messages. -/
def Flag.title {α : Type} (f : Flag α) : String := "/".intercalate f.names

/-- What a command does with its plain arguments. -/
inductive Shape where
  /-- At most one is taken. -/
  | atMostOne
  /-- The first one takes everything after it. -/
  | withRest
  deriving Repr, DecidableEq

/-- Why arguments cannot be read. -/
inductive Fault where
  | ambiguous (argument : String) (names : List String)
  | expectsValue (title : String)
  | ignoredValue (title : String) (value : String)
  deriving Repr, DecidableEq

/-- The text of a fault. -/
def Fault.message : Fault → String
  | ambiguous argument names =>
    s!"ambiguous option: {argument} could match " ++ ", ".intercalate names
  | expectsValue title => s!"argument {title}: expected one argument"
  | ignoredValue title value =>
    s!"argument {title}: ignored explicit argument {Text.quotedString value}"

/-! ## Telling arguments apart -/

/-- What an argument is. -/
inductive Kind (α : Type) where
  | plain
  /-- Two dashes alone. -/
  | divider
  | option (flag : Flag α) (value : Option String)
  /-- An option that does not exist. -/
  | unknown

/-- An argument with what it is. -/
structure Argument (α : Type) where
  text : String
  kind : Kind α

variable {α : Type}

/-- Every name with its option. -/
def named (flags : List (Flag α)) : List (String × Flag α) :=
  flags.flatMap fun f => f.names.map fun n => (n, f)

/-- The option with a name. -/
def find? (flags : List (Flag α)) (name : String) : Option (Flag α) :=
  ((named flags).find? (·.1 == name)).map (·.2)

/-- A text up to its first equals sign, and what follows the sign. -/
def splitValue (text : List Char) : List Char × Option String :=
  (text.takeWhile (· ≠ '='),
    match text.dropWhile (· ≠ '=') with
    | [] => none
    | _ :: value => some (String.ofList value))

/-- The options that a text may be short for, with their full names and with the value in the text.
After a single dash the first character alone names the option. -/
def candidates (flags : List (Flag α)) (text : List Char) :
    List (String × Flag α × Option String) :=
  match text with
  | '-' :: '-' :: _ =>
    let (name, value) := splitValue text
    ((named flags).filter fun n => name.isPrefixOf n.1.toList).map fun (n, f) => (n, f, value)
  | dash :: c :: value =>
    ((named flags).filter fun n => n.1.toList == [dash, c]).map fun (n, f) =>
      (n, f, some (String.ofList value))
  | _ => []

/-- Whether a text is a minus with digits, perhaps with a point before some of them. A line feed may
end it. -/
def isNegativeNumber (text : List Char) : Bool :=
  let isDigit := fun c => (Text.digitValue? c).isSome
  match text with
  | '-' :: body =>
    let body := if body.getLast? = some '\n' then body.dropLast else body
    let whole := body.takeWhile isDigit
    match body.dropWhile isDigit with
    | [] => !whole.isEmpty
    | '.' :: fraction => !fraction.isEmpty && fraction.all isDigit
    | _ => false
  | _ => false

/-- What an argument is that starts with a dash and is not an option's full name. -/
def kindOfDashed (flags : List (Flag α)) (text : String) : Except Fault (Kind α) :=
  match candidates flags text.toList with
  | [] =>
    .ok (if isNegativeNumber text.toList || text.toList.contains ' ' then .plain else .unknown)
  | [(_, f, value)] => .ok (.option f value)
  | several => .error (.ambiguous text (several.map (·.1)))

/-- What an argument is. -/
def kindOf (flags : List (Flag α)) (text : String) : Except Fault (Kind α) :=
  match text.toList with
  | '-' :: rest =>
    match find? flags text with
    | some f => .ok (.option f none)
    | none =>
      if rest.isEmpty then .ok .plain
      else match splitValue text.toList with
        | (name, some value) =>
          match find? flags (String.ofList name) with
          | some f => .ok (.option f (some value))
          | none => kindOfDashed flags text
        | (_, none) => kindOfDashed flags text
  | _ => .ok .plain

/-- Tells arguments apart. -/
def tellApart (flags : List (Flag α)) : List String → Except Fault (List (Argument α))
  | [] => .ok []
  | "--" :: rest => .ok (⟨"--", .divider⟩ :: rest.map (⟨·, .plain⟩))
  | text :: rest => do
    let kind ← kindOf flags text
    return ⟨text, kind⟩ :: (← tellApart flags rest)

/-! ## Reading -/

/-- What arguments say, piece by piece. -/
inductive Item (α : Type) where
  /-- An option, with its value if it takes one. -/
  | option (key : α) (title value : String)
  /-- The plain arguments of the command. -/
  | plain (arguments : List String)
  /-- An argument that has no place. -/
  | extra (text : String)

/-- The options with a single dash that stand in one argument: after `first`, which takes no value,
each character names another. -/
def bundled (flags : List (Flag α)) (first : Flag α) :
    List Char → Except Fault (List (Item α))
  | [] => .ok [.option first.key first.title ""]
  | c :: rest =>
    match find? flags (String.ofList ['-', c]) with
    | some next => do
      return .option first.key first.title "" :: (← bundled flags next rest)
    | none => .error (.ignoredValue first.title (String.ofList (c :: rest)))

/-- Whether the names of an option have a single dash. -/
def Flag.isShort (f : Flag α) (text : String) : Bool :=
  match text.toList with
  | '-' :: '-' :: _ => false
  | _ => f.names.any fun n => n.length == 2

/-- The items of an option that has a value in its own argument. -/
def withValue (flags : List (Flag α)) (f : Flag α) (text value : String) :
    Except Fault (List (Item α)) :=
  if f.takesValue then .ok [.option f.key f.title value]
  else if f.isShort text && value != "" then bundled flags f value.toList
  else .error (.ignoredValue f.title value)

/-- Takes the plain arguments of a command at the front: what they are, and what is left. Nothing is
taken if only a divider is there and the command needs more. -/
def takePlain (shape : Shape) (arguments : List (Argument α)) :
    Option (List String × List (Argument α)) :=
  let isDivider := fun (a : Argument α) => a.kind matches .divider
  let isPlain := fun (a : Argument α) => a.kind matches .plain
  let dividers := arguments.takeWhile isDivider
  let rest := arguments.dropWhile isDivider
  match shape, rest with
  | .withRest, a :: _ => if isPlain a then some (arguments.map (·.text), []) else none
  | .withRest, [] => none
  | .atMostOne, a :: rest =>
    if isPlain a then
      some ((dividers ++ a :: rest.takeWhile isDivider).map (·.text), rest.dropWhile isDivider)
    else if dividers.isEmpty then none else some (dividers.map (·.text), a :: rest)
  | .atMostOne, [] => if dividers.isEmpty then none else some (dividers.map (·.text), [])

/-- Reads arguments that are told apart; `taken` says whether the plain arguments of the command
have been found. Each round passes at least one argument, so as many rounds as arguments are
enough. -/
def readFrom (flags : List (Flag α)) (shape : Shape) :
    Nat → Bool → List (Argument α) → List (Item α) × Option Fault
  | 0, _, _ => ([], none)
  | _, _, [] => ([], none)
  | rounds + 1, taken, a :: rest =>
    let next := fun (items : List (Item α)) (taken : Bool) (rest : List (Argument α)) =>
      let (more, fault) := readFrom flags shape rounds taken rest
      (items ++ more, fault)
    match a.kind with
    | .unknown => next [.extra a.text] taken rest
    | .option f (some value) =>
      match withValue flags f a.text value with
      | .ok items => next items taken rest
      | .error fault => ([], some fault)
    | .option f none =>
      if f.takesValue then
        match rest with
        | ⟨value, .plain⟩ :: rest => next [.option f.key f.title value] taken rest
        | _ => ([], some (.expectsValue f.title))
      else next [.option f.key f.title ""] taken rest
    | _ =>
      match if taken then none else takePlain shape (a :: rest) with
      | some (arguments, rest) => next [.plain arguments] true rest
      | none => next [.extra a.text] taken rest

/-- **Reads the arguments of a command.** -/
def read (flags : List (Flag α)) (shape : Shape) (arguments : List String) :
    List (Item α) × Option Fault :=
  match tellApart flags arguments with
  | .error fault => ([], some fault)
  | .ok arguments => readFrom flags shape (arguments.length + 1) false arguments

end CodeAudit.CommandLine
