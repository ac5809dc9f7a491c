import GeoLint.Proofs.Syntax.Tree
import GeoLint.Syntax.Dump
import Mathlib.Data.List.Basic

/-!
# Dumps lose nothing

A dump is data, and what is a node in data can be told without a tree: it is a table that says of
what type it is (`Value.nodes`).  The dump of a node is one, and the others in it are those in the
dumps of its children (`Node.nodes_dump_eq`).  So the nodes of a dump are the dumps of the nodes
that a walk through the tree enters, in the same order (`Node.nodes_dump`).

A dump also determines its node, with the place of the node and all that is below it
(`Node.dump_injective`).  What a dump shows of any node is its label, its content and its place
(`dumpNode_inj`); the rest is an induction along the children (`Node.induction_children`).
-/

namespace GeoLint

/-! ### The nodes in data -/

namespace Value

mutual
/-- The tables in a value that have a type, in the order in which they are written: each before
those in it. -/
def nodes : Value → List Value
  | .list items => nodesOfItems items
  | .table fields =>
    if (Table.get? fields "type").isSome then .table fields :: nodesOfFields fields
    else nodesOfFields fields
  | _ => []

/-- The tables with a type in the values of a list. -/
def nodesOfItems : List Value → List Value
  | [] => []
  | v :: vs => v.nodes ++ nodesOfItems vs

/-- The tables with a type in the entries of a table. -/
def nodesOfFields : List (String × Value) → List Value
  | [] => []
  | (_, v) :: rest => v.nodes ++ nodesOfFields rest
end

@[simp] theorem nodes_list (items : List Value) : (list items).nodes = items.flatMap nodes := by
  rw [nodes]
  induction items with
  | nil => rfl
  | cons v vs ih => rw [nodesOfItems, ih, List.flatMap_cons]

@[simp] theorem nodes_real (x : Binary64) : (real x).nodes = [] := rfl

@[simp] theorem nodes_text (s : String) : (text s).nodes = [] := rfl

@[simp] theorem nodes_truth (b : Bool) : (truth b).nodes = [] := rfl

@[simp] theorem nodesOfFields_nil : nodesOfFields [] = [] := rfl

@[simp] theorem nodesOfFields_cons (key : String) (v : Value) (t : Table) :
    nodesOfFields ((key, v) :: t) = v.nodes ++ nodesOfFields t := rfl

theorem nodesOfFields_append (t u : Table) :
    nodesOfFields (t ++ u) = nodesOfFields t ++ nodesOfFields u := by
  induction t with
  | nil => rfl
  | cons e t ih =>
    rw [List.cons_append, nodesOfFields_cons, ih, nodesOfFields_cons, List.append_assoc]

end Value

open Value (nodesOfFields)

/-- A dumped node is a node, and the others in it are in its content: a place is none. -/
theorem nodes_dumpNode (label : String) (content : Table) (span : Span) :
    (dumpNode label content span).nodes =
      dumpNode label content span :: nodesOfFields content := by
  have htype : (Table.get? (("type", .text label) :: (content ++ [("loc", span.dump)]))
      "type").isSome = true := rfl
  have hplace : nodesOfFields (content ++ [("loc", span.dump)]) = nodesOfFields content := by
    rw [Value.nodesOfFields_append]
    exact List.append_nil _
  rw [dumpNode, Value.nodes, if_pos htype, Value.nodesOfFields_cons, hplace]
  rfl

namespace Node

/-- **One step down a dump**: the dump itself, then what is in the dumps of the children. -/
theorem nodes_dump_eq (n : Node) :
    n.dump.nodes = n.dump :: n.children.flatMap fun c => c.dump.nodes := by
  cases n with
  | script s =>
    simp [dump, Script.dump, nodes_dumpNode, children, List.flatMap_map]
  | statement s =>
    simp [dump, Statement.dump, nodes_dumpNode, children, dumpsOf_eq_map, List.flatMap_map,
      Node.name, Expr.dump]
  | expr e =>
    cases e <;>
      simp [dump, Expr.dump, nodes_dumpNode, children, dumpsOf_eq_map, List.flatMap_map,
        Node.name, Name.dump]

/-! ### Induction along the children -/

/-- What passes from the children of a node to it holds of all nodes. -/
theorem induction_children {P : Node → Prop} (node : ∀ n, (∀ c ∈ n.children, P c) → P n)
    (n : Node) : P n := by
  have hexpr (e : Expr) : P (.expr e) := by
    induction e using Expr.induction_children with
    | node e ih =>
      refine node _ fun c hc => ?_
      obtain ⟨e', rfl⟩ := exists_expr_of_mem_children hc
      exact ih e' hc
  have hstatement (s : Statement) : P (.statement s) := by
    refine node _ fun c hc => ?_
    rcases List.mem_cons.1 hc with rfl | hc
    · exact hexpr _
    · obtain ⟨e, -, rfl⟩ := List.mem_map.1 hc
      exact hexpr e
  cases n with
  | script s =>
    refine node _ fun c hc => ?_
    obtain ⟨t, -, rfl⟩ := List.mem_map.1 hc
    exact hstatement t
  | statement s => exact hstatement s
  | expr e => exact hexpr e

/-- **The nodes of a dump are the dumps of the nodes**, in the order of a walk through the tree. -/
theorem nodes_dump (n : Node) : n.dump.nodes = n.nodes.map dump := by
  induction n using induction_children with
  | node n ih =>
    rw [nodes_dump_eq, nodes_eq, List.map_cons, List.map_flatMap]
    exact congrArg (n.dump :: ·) (List.flatMap_congr ih)

end Node

/-! ### A dump determines its node -/

@[simp] theorem Position.dump_inj {p q : Position} : p.dump = q.dump ↔ p = q := by
  obtain ⟨line, column⟩ := p
  obtain ⟨line', column'⟩ := q
  simp only [Position.dump, Value.table.injEq, List.cons.injEq, Prod.mk.injEq, Value.whole.injEq,
    Int.natCast_inj, true_and, and_true, Position.mk.injEq]

@[simp] theorem Span.dump_inj {s t : Span} : s.dump = t.dump ↔ s = t := by
  obtain ⟨start, stop⟩ := s
  obtain ⟨start', stop'⟩ := t
  simp [Span.dump]

/-- **What a dump shows of a node**: its label, its content and its place. -/
@[simp] theorem dumpNode_inj {label label' : String} {content content' : Table}
    {span span' : Span} :
    dumpNode label content span = dumpNode label' content' span' ↔
      label = label' ∧ content = content' ∧ span = span' := by
  have hlast : content ++ [("loc", span.dump)] = content' ++ [("loc", span'.dump)] ↔
      content = content' ∧ span = span' := by
    rw [← List.concat_eq_append, ← List.concat_eq_append, List.concat_inj]
    simp
  simp [dumpNode, hlast]

section Name

variable {n m : Name} {label : String} {content : Table} {span : Span}

@[simp] theorem dumpNode_eq_dump_name : dumpNode label content span = n.dump ↔
    label = "Identifier" ∧ content = [("name", .text n.text)] ∧ span = n.span :=
  dumpNode_inj

@[simp] theorem Name.dump_eq_dumpNode : n.dump = dumpNode label content span ↔
    "Identifier" = label ∧ [("name", .text n.text)] = content ∧ n.span = span :=
  dumpNode_inj

@[simp] theorem Name.dump_inj : n.dump = m.dump ↔ n = m := by
  obtain ⟨text, span⟩ := n
  obtain ⟨text', span'⟩ := m
  simp [Name.dump]

end Name

mutual
/-- An expression is determined by its dump. -/
theorem Expr.eq_of_dump {e e' : Expr} (h : e.dump = e'.dump) : e = e' := by
  -- Another constructor would have another label.
  cases e with
  | name n =>
    cases e' <;> simp [Expr.dump] at h
    rw [h]
  | number x s | text t s | truth b s =>
    cases e' <;> simp [Expr.dump] at h
    rw [h.1, h.2]
  | list es s | tuple es s =>
    cases e' <;> simp [Expr.dump] at h
    rw [eq_of_dumpsOf h.1, h.2]
  | call f as s =>
    cases e' <;> simp [Expr.dump] at h
    rw [h.1.1, eq_of_dumpsOf h.1.2, h.2]

/-- So are expressions in a list. -/
theorem eq_of_dumpsOf {es es' : List Expr} (h : dumpsOf es = dumpsOf es') : es = es' := by
  cases es with
  | nil =>
    cases es' with
    | nil => rfl
    | cons e' es' => cases h
  | cons e es =>
    cases es' with
    | nil => cases h
    | cons e' es' =>
      obtain ⟨hhead, htail⟩ := List.cons.inj h
      rw [Expr.eq_of_dump hhead, eq_of_dumpsOf htail]
end

theorem Statement.dump_injective : Function.Injective Statement.dump := by
  intro s s' h
  obtain ⟨command, arguments, span⟩ := s
  obtain ⟨command', arguments', span'⟩ := s'
  simp [Statement.dump] at h
  rw [h.1.1, eq_of_dumpsOf h.1.2, h.2]

theorem Script.dump_injective : Function.Injective Script.dump := by
  intro s s' h
  obtain ⟨body, span⟩ := s
  obtain ⟨body', span'⟩ := s'
  simp [Script.dump] at h
  rw [Statement.dump_injective.list_map h.1, h.2]

theorem Node.dump_injective : Function.Injective Node.dump := by
  intro n m h
  cases n with
  | script s =>
    cases m with
    | script s' => rw [Script.dump_injective h]
    | statement s' => simp [dump, Script.dump, Statement.dump] at h
    | expr e' => cases e' <;> simp [dump, Script.dump, Expr.dump] at h
  | statement s =>
    cases m with
    | script s' => simp [dump, Script.dump, Statement.dump] at h
    | statement s' => rw [Statement.dump_injective h]
    | expr e' => cases e' <;> simp [dump, Statement.dump, Expr.dump] at h
  | expr e =>
    cases m with
    | script s' => cases e <;> simp [dump, Script.dump, Expr.dump] at h
    | statement s' => cases e <;> simp [dump, Statement.dump, Expr.dump] at h
    | expr e' => rw [Expr.eq_of_dump h]

/-- **A dump loses nothing.**  Nodes with the same dump are the same, places included, whatever
their kinds.  And the nodes of a dump, in the order in which they are written, are the dumps of the
nodes that a walk through the tree enters, in the order of the walk and each once. -/
theorem dump_loses_nothing :
    Function.Injective Node.dump ∧ ∀ n : Node, n.dump.nodes = n.nodes.map Node.dump :=
  ⟨Node.dump_injective, Node.nodes_dump⟩

end GeoLint
