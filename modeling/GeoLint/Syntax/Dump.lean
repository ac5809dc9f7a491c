import GeoLint.Syntax.Basic
import GeoLint.Value.Basic

/-!
# Dumps of syntax trees

A dump writes a tree as data: each node is a table with its kind, its content and its place, in
this order.
-/

namespace GeoLint

/-- A position as data. -/
def Position.dump (p : Position) : Value :=
  .table [("line", .whole p.line), ("column", .whole p.column)]

/-- A span as data. -/
def Span.dump (s : Span) : Value :=
  .table [("start", s.start.dump), ("end", s.stop.dump)]

/-- A node of kind `label`: its content between kind and place. -/
def dumpNode (label : String) (content : Table) (span : Span) : Value :=
  .table (("type", .text label) :: (content ++ [("loc", span.dump)]))

/-- A name as data. -/
def Name.dump (n : Name) : Value :=
  dumpNode "Identifier" [("name", .text n.text)] n.span

mutual
/-- An expression as data. -/
def Expr.dump : Expr → Value
  | .name n => n.dump
  | .number x s => dumpNode "NumberLiteral" [("value", .real x)] s
  | .text t s => dumpNode "StringLiteral" [("value", .text t)] s
  | .truth b s => dumpNode "BooleanLiteral" [("value", .truth b)] s
  | .list es s => dumpNode "ListLiteral" [("elements", .list (dumpsOf es))] s
  | .tuple es s => dumpNode "TupleLiteral" [("elements", .list (dumpsOf es))] s
  | .call f as s =>
    dumpNode "FunctionCall" [("callee", f.dump), ("arguments", .list (dumpsOf as))] s

/-- Expressions as data. -/
def dumpsOf : List Expr → List Value
  | [] => []
  | e :: es => e.dump :: dumpsOf es
end

/-- A statement as data. -/
def Statement.dump (s : Statement) : Value :=
  dumpNode "CommandStatement"
    [("commandName", s.command.dump), ("arguments", .list (dumpsOf s.arguments))] s.span

/-- A script as data. -/
def Script.dump (s : Script) : Value :=
  dumpNode "Program" [("body", .list (s.body.map Statement.dump))] s.span

/-- A node as data. -/
def Node.dump : Node → Value
  | .script s => s.dump
  | .statement s => s.dump
  | .expr e => e.dump

theorem dumpsOf_eq_map (es : List Expr) : dumpsOf es = es.map Expr.dump := by
  induction es with
  | nil => rfl
  | cons e es ih => simp [dumpsOf, ih]

end GeoLint
