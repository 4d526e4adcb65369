/-!
# Syntax trees of Python source

A tree is a label with a place in the source and the parts below it, in the order of the fields of
its kind. Every traversal that the checks need is over this one shape: `walk` lists a tree level by
level, and `nesting` measures the deepest chain of block statements. A kind that can be read, set or
deleted says which in a part of its own, the context; nothing depends on it, so it is left out of
the tree, but measuring a tree goes down to it (`reach`).

Lines count from one. Columns count the UTF-8 bytes before the place on its line.
-/

namespace CodeAudit.Syntax

/-- A stretch of source. -/
structure Span where
  line : Nat
  col : Nat
  endLine : Nat
  endCol : Nat
  /-- How many of the bytes before the place are not counted where its column is reported. -/
  shift : Nat
  deriving Repr, DecidableEq, Inhabited

/-- What a literal is, as far as anything depends on it. -/
inductive Literal where
  | none
  | true
  | false
  | ellipsis
  | number
  | text
  | bytes
  deriving Repr, DecidableEq

/-- How a parameter takes its argument. -/
inductive ParamRole where
  | positionalOnly
  | plain
  | variadic
  | keywordOnly
  | keywordVariadic
  deriving Repr, DecidableEq

/-- The kinds of tree nodes, with what is not itself a tree. -/
inductive Label where
  -- statements
  | module
  | functionDef (isAsync : Bool) (name : String)
  | classDef (name : String)
  | returning
  | delete
  | assign
  | augAssign
  | annAssign
  | forLoop (isAsync : Bool)
  | whileLoop
  | conditional
  | withBlock (isAsync : Bool)
  | matching
  | raising
  | tryBlock
  | tryStar
  | assertion
  | importNames
  | importFrom (module : Option String)
  | globalNames
  | nonlocalNames
  | exprStatement
  | pass
  | breaking
  | continuing
  -- expressions
  | boolOp
  | namedExpr
  | binOp
  | unaryOp
  | lambda
  | choice
  | dict
  | set
  | listComp
  | setComp
  | dictComp
  | generator
  | await
  | yield
  | yieldFrom
  | compare (startsWithIn : Bool)
  | call
  | interpolation
  | joinedText
  | constant (value : Literal)
  | attribute (name : String)
  | subscript
  | starred
  | name (id : String)
  | list
  | tuple
  | slice
  -- parts of statements and expressions
  | comprehension
  | exceptHandler
  | arguments
  | param (role : ParamRole) (name : String)
  | keyword (name : Option String)
  | alias (name : String)
  | withItem
  | matchCase
  | pattern
  deriving Repr, DecidableEq

/-- Whether nodes of a kind have a context below them. -/
def Label.hasContext : Label → Bool
  | .attribute _ | .subscript | .starred | .name _ | .list | .tuple => true
  | _ => false

/-- A syntax tree. -/
inductive Node where
  | mk (label : Label) (span : Span) (parts : List Node)
  deriving Repr

namespace Node

/-- The kind of a node. -/
def label : Node → Label
  | mk l _ _ => l

/-- The place of a node. -/
def span : Node → Span
  | mk _ s _ => s

/-- The nodes directly below a node. -/
def parts : Node → List Node
  | mk _ _ ps => ps

/-- The number of levels of a tree. -/
def height : Node → Nat
  | mk _ _ parts => heightAll parts + 1
where
  /-- The largest height in a list of trees. -/
  heightAll : List Node → Nat
    | [] => 0
    | n :: rest => max (height n) (heightAll rest)

/-- The number of levels of a tree with the contexts. -/
def reach : Node → Nat
  | mk label _ parts => max (reachAll parts) label.hasContext.toNat + 1
where
  /-- The largest reach in a list of trees. -/
  reachAll : List Node → Nat
    | [] => 0
    | n :: rest => max (reach n) (reachAll rest)

/-- The nodes of a list of trees, level by level, down to a number of levels. -/
def levels : Nat → List Node → List Node
  | 0, _ => []
  | n + 1, nodes => nodes ++ levels n (nodes.flatMap parts)

/-- **All nodes of a tree, level by level**, each level from left to right. -/
def walk (tree : Node) : List Node := levels tree.height [tree]

end Node

/-- Whether a kind is a statement. -/
def Label.isStatement : Label → Bool
  | .module | .functionDef .. | .classDef .. | .returning | .delete | .assign | .augAssign
  | .annAssign | .forLoop .. | .whileLoop | .conditional | .withBlock .. | .matching | .raising
  | .tryBlock | .tryStar | .assertion | .importNames | .importFrom .. | .globalNames
  | .nonlocalNames | .exprStatement | .pass | .breaking | .continuing => true
  | _ => false

/-- Whether a kind adds a level of nesting: branches, loops, guarded blocks and matches. A try
block with starred handlers does not. -/
def Label.nests : Label → Bool
  | .conditional | .forLoop .. | .whileLoop | .tryBlock | .withBlock .. | .matching => true
  | _ => false

namespace Node

/-- The deepest nesting below a node that itself stands at a depth. -/
def nestingFrom (depth : Nat) : Node → Nat
  | mk label _ parts =>
    let here := if label.nests then depth + 1 else depth
    deepest here here parts
where
  /-- The largest of a bound and the nesting of the listed trees. -/
  deepest (here best : Nat) : List Node → Nat
    | [] => best
    | n :: rest => deepest here (max best (nestingFrom here n)) rest

/-- The deepest nesting of a tree. -/
def nesting (tree : Node) : Nat := nestingFrom 0 tree

/-- The statements directly below a node. -/
def statements (n : Node) : List Node := n.parts.filter (·.label.isStatement)

end Node

end CodeAudit.Syntax
