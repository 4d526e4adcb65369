import CodeAudit.Json.Reader
import CodeAudit.Toml.Value

/-!
# The machine

What a run finds on the machine it works on, besides the disk: the room on its stack, and the other
programs. How far down a parser can go before the stack is used up depends on more than the text it
reads, so for a parser the stack is given by what becomes of each text: nothing, or the complaint
with which the parser gives up.
-/

namespace CodeAudit

/-- A depth of JSON that every stack has room for. -/
def safeDepth : Nat := 100

/-- **The room on the stack of a machine.** -/
structure Stack where
  /-- How many levels of a syntax tree can be gone down. -/
  levels : Nat
  /-- How many folders can be gone down, one in the other. -/
  folders : Nat
  /-- How many missing folders can be made, one above the other. -/
  newFolders : Nat
  /-- The complaint of the parser of sources about a text that is too deep for it. -/
  source? : List Char → Option String
  /-- The complaint of the reader of settings about a text that is too deep for it, or whose values
  are too deep to be made into texts. -/
  settings? : List Char → Option String
  /-- The complaint of the reader of JSON about a text that is too deep for it. -/
  json? : List Char → Option String
  /-- The complaint about a value that is too deep to be shown. -/
  value? : Toml.Value → Option String
  /-- JSON of a moderate depth can be read. -/
  json?_of_depth_le : ∀ text j, Json.read text = .ok j → j.depth ≤ safeDepth → json? text = none

/-- The stack of the usual size, where nothing is too deep for a parser. -/
def Stack.usual : Stack where
  levels := 985
  folders := 985
  newFolders := 985
  source? _ := none
  settings? _ := none
  json? _ := none
  value? _ := none
  json?_of_depth_le _ _ _ _ := rfl

/-- What the stack of the machine has no room for: a text when it is read, the syntax tree of a
source when it is built, the way down the tree when its nesting is measured, or the way through
folders. -/
inductive Overflow where
  | reading (complaint : String)
  | building
  | measuring
  | walking
  deriving Repr, DecidableEq

/-- The text of an overflow. -/
def Overflow.message : Overflow → String
  | reading complaint => complaint
  | building => "maximum recursion depth exceeded during ast construction"
  | measuring => "maximum recursion depth exceeded"
  | walking => "maximum recursion depth exceeded"

namespace External

/-- What a program answers. -/
structure Reply where
  output : String := ""
  errors : String := ""
  code : Int := 0
  deriving Repr, DecidableEq

/-- What is known of the machine: whether programs are found by their names, what they answer,
whether they are started with any arguments at all or only with such as can be handed over, and the
room on the stack. -/
structure Machine where
  installed : Bool := true
  reply : Reply := {}
  takesAnything : Bool := false
  stack : Stack := .usual

end External

end CodeAudit
