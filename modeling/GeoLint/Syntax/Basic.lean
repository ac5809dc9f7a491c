import GeoLint.Decimal.Binary64
import GeoLint.Position

/-!
# Syntax trees

A script is a flat list of command statements, each a command name with arguments.  A plain
assignment such as `A = (1, 2)` is kept as a statement named `A` with the right-hand side as its
only argument; the target of `P = Point(x)` is dropped.

`Node` is any piece of a tree.  `Node.tour` walks a tree and enters and leaves every node once,
which is how rules see a script; `Node.preorder` lists the nodes with their depths.
-/

namespace GeoLint

/-- A name in a script. -/
structure Name where
  /-- How it is spelled. -/
  text : String
  /-- Where it stands. -/
  span : Span
deriving DecidableEq, Repr

/-- An expression. -/
inductive Expr where
  /-- A name. -/
  | name (n : Name)
  /-- A number. -/
  | number (value : Binary64) (span : Span)
  /-- A string literal. -/
  | text (value : String) (span : Span)
  /-- `true` or `false`. -/
  | truth (value : Bool) (span : Span)
  /-- A list in braces. -/
  | list (elements : List Expr) (span : Span)
  /-- Coordinates in parentheses. -/
  | tuple (elements : List Expr) (span : Span)
  /-- A command used as an argument. -/
  | call (callee : Name) (arguments : List Expr) (span : Span)
deriving Repr

/-- Where an expression stands. -/
def Expr.span : Expr → Span
  | .name n => n.span
  | .number _ s | .text _ s | .truth _ s | .list _ s | .tuple _ s | .call _ _ s => s

/-- A command with its arguments. -/
structure Statement where
  /-- The command. -/
  command : Name
  /-- Its arguments. -/
  arguments : List Expr
  /-- Where the statement stands, from the target of an assignment on. -/
  span : Span
deriving Repr

/-- A script. -/
structure Script where
  /-- The statements in order. -/
  body : List Statement
  /-- From the first token of the script to its last. -/
  span : Span
deriving Repr

/-- Any piece of a syntax tree. -/
inductive Node where
  /-- The whole script. -/
  | script (s : Script)
  /-- A statement. -/
  | statement (s : Statement)
  /-- An expression. -/
  | expr (e : Expr)
deriving Repr

namespace Node

/-- The node of a name. -/
def name (n : Name) : Node := .expr (.name n)

/-- Where a node stands. -/
def span : Node → Span
  | .script s => s.span
  | .statement s => s.span
  | .expr e => e.span

/-- The name of a node's kind in dumps and answers. -/
def label : Node → String
  | .script _ => "Program"
  | .statement _ => "CommandStatement"
  | .expr (.name _) => "Identifier"
  | .expr (.number ..) => "NumberLiteral"
  | .expr (.text ..) => "StringLiteral"
  | .expr (.truth ..) => "BooleanLiteral"
  | .expr (.list ..) => "ListLiteral"
  | .expr (.tuple ..) => "TupleLiteral"
  | .expr (.call ..) => "FunctionCall"

/-- The nodes right below a node, in the order of the script. -/
def children : Node → List Node
  | .script s => s.body.map .statement
  | .statement s => name s.command :: s.arguments.map .expr
  | .expr (.call f as _) => name f :: as.map .expr
  | .expr (.list es _) | .expr (.tuple es _) => es.map .expr
  | .expr _ => []

/-! ### Walking a tree -/

/-- A step of a walk through a tree. -/
inductive Visit where
  /-- The node is reached. -/
  | enter (n : Node)
  /-- All below the node has been walked. -/
  | leave (n : Node)

/-- Enter a node, make the steps below it, leave it. -/
def Visit.around (n : Node) (below : List Visit) : List Visit :=
  .enter n :: (below ++ [.leave n])

end Node

open Node (Visit)

mutual
/-- The walk through an expression. -/
def Expr.tour : Expr → List Visit
  | .list es s => Visit.around (.expr (.list es s)) (toursOf es)
  | .tuple es s => Visit.around (.expr (.tuple es s)) (toursOf es)
  | .call f as s =>
    Visit.around (.expr (.call f as s)) (Visit.around (.name f) [] ++ toursOf as)
  | e => Visit.around (.expr e) []

/-- The walks through expressions, one after the other. -/
def toursOf : List Expr → List Visit
  | [] => []
  | e :: es => e.tour ++ toursOf es
end

/-- The walk through a statement. -/
def Statement.tour (s : Statement) : List Visit :=
  Visit.around (.statement s) (Visit.around (.name s.command) [] ++ toursOf s.arguments)

/-- The walk through a script. -/
def Script.tour (s : Script) : List Visit :=
  Visit.around (.script s) (s.body.flatMap Statement.tour)

/-- The walk through a tree: every node is entered before and left after all below it. -/
def Node.tour : Node → List Visit
  | .script s => s.tour
  | .statement s => s.tour
  | .expr e => e.tour

/-- The nodes entered during a walk, with the number of nodes that were open then. -/
def Node.entered : Nat → List Visit → List (Nat × Node)
  | _, [] => []
  | depth, .enter n :: rest => (depth, n) :: entered (depth + 1) rest
  | depth, .leave _ :: rest => entered (depth - 1) rest

/-- The nodes of a tree with their depths, each before all below it. -/
def Node.preorder (n : Node) : List (Nat × Node) :=
  Node.entered 0 n.tour

/-! ### The walk goes through the children in turn -/

theorem toursOf_eq_flatMap (es : List Expr) : toursOf es = es.flatMap Expr.tour := by
  induction es with
  | nil => rfl
  | cons e es ih => simp [toursOf, ih]

theorem Node.tour_eq (n : Node) : n.tour = Visit.around n (n.children.flatMap Node.tour) := by
  cases n with
  | script s => simp [Node.tour, Script.tour, children, List.flatMap_map]
  | statement s =>
    simp [Node.tour, Statement.tour, children, toursOf_eq_flatMap, List.flatMap_map, Node.name,
      Expr.tour]
  | expr e =>
    cases e <;>
      simp [Node.tour, Expr.tour, children, toursOf_eq_flatMap, List.flatMap_map, Node.name]

end GeoLint
