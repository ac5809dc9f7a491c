import GeoLint.Syntax.Basic

/-!
# Induction on syntax trees

All below an expression are expressions (`Node.exists_expr_of_mem_children`), so what holds of an
expression whenever it holds of the expressions right below it holds of all
(`Expr.induction_children`).  With it follows what a walk through a tree can meet: inside an
expression only expressions (`Expr.exists_expr_of_mem_tour`).

`Node.nodes` are the nodes that a walk enters, each before those below it: first the root, then the
nodes of each of its children in turn (`Node.nodes_eq`).
-/

namespace GeoLint

open Node (Visit)

namespace Node

theorem exists_expr_of_mem_children {e : Expr} {n : Node} (h : n ∈ (Node.expr e).children) :
    ∃ e', n = .expr e' := by
  cases e with
  | name | number | text | truth => cases h
  | list es | tuple es =>
    obtain ⟨e', -, rfl⟩ := List.mem_map.1 h
    exact ⟨e', rfl⟩
  | call f as =>
    rcases List.mem_cons.1 h with rfl | h
    · exact ⟨.name f, rfl⟩
    · obtain ⟨e', -, rfl⟩ := List.mem_map.1 h
      exact ⟨e', rfl⟩

theorem sizeOf_lt_of_mem_children {e e' : Expr} (h : Node.expr e' ∈ (Node.expr e).children) :
    sizeOf e' < sizeOf e := by
  cases e with
  | name | number | text | truth => cases h
  | list es s | tuple es s =>
    obtain ⟨e', he', heq⟩ := List.mem_map.1 h
    cases heq
    have hlt := List.sizeOf_lt_of_mem he'
    simp only [Expr.list.sizeOf_spec, Expr.tuple.sizeOf_spec]
    omega
  | call f as s =>
    rcases List.mem_cons.1 h with heq | h
    · cases heq
      have hpos : 0 < sizeOf as := by
        cases as with
        | nil => exact Nat.zero_lt_one
        | cons a as =>
          rw [List.cons.sizeOf_spec]
          omega
      rw [Expr.name.sizeOf_spec, Expr.call.sizeOf_spec]
      omega
    · obtain ⟨e', he', heq⟩ := List.mem_map.1 h
      cases heq
      have hlt := List.sizeOf_lt_of_mem he'
      simp only [Expr.call.sizeOf_spec]
      omega

end Node

/-- What passes from the expressions right below an expression to it holds of all expressions. -/
theorem Expr.induction_children {P : Expr → Prop}
    (node : ∀ e, (∀ e', Node.expr e' ∈ (Node.expr e).children → P e') → P e) (e : Expr) : P e :=
  node e fun e' _ => Expr.induction_children node e'
termination_by sizeOf e
decreasing_by exact Node.sizeOf_lt_of_mem_children ‹_›

/-! ### What a walk meets -/

namespace Node

theorem mem_tour_iff {step : Visit} {n : Node} : step ∈ n.tour ↔
    step = .enter n ∨ (∃ m ∈ n.children, step ∈ m.tour) ∨ step = .leave n := by
  rw [Node.tour_eq, Visit.around, List.mem_cons, List.mem_append, List.mem_singleton,
    List.mem_flatMap]

theorem enter_mem_tour_iff {m n : Node} : Visit.enter m ∈ n.tour ↔
    m = n ∨ ∃ c ∈ n.children, Visit.enter m ∈ c.tour := by
  rw [mem_tour_iff, Visit.enter.injEq]
  simp only [reduceCtorEq, or_false]

theorem enter_mem_tour_self (n : Node) : Visit.enter n ∈ n.tour :=
  enter_mem_tour_iff.2 (.inl rfl)

/-- A walk through a script enters all that stands right below its statements. -/
theorem enter_mem_tour_script {script : Script} {s : Statement} {n : Node} (hs : s ∈ script.body)
    (hn : n ∈ (Node.statement s).children) : Visit.enter n ∈ script.tour := by
  have hstatement : Visit.enter n ∈ (Node.statement s).tour :=
    enter_mem_tour_iff.2 (.inr ⟨n, hn, enter_mem_tour_self n⟩)
  exact (enter_mem_tour_iff (n := .script script)).2
    (.inr ⟨_, List.mem_map_of_mem hs, hstatement⟩)

theorem mem_entered {x : Nat × Node} {depth : Nat} {steps : List Visit}
    (h : x ∈ Node.entered depth steps) : Visit.enter x.2 ∈ steps := by
  induction steps generalizing depth with
  | nil => cases h
  | cons step steps ih =>
    cases step with
    | enter n =>
      rcases List.mem_cons.1 h with rfl | h
      · exact List.mem_cons_self
      · exact List.mem_cons_of_mem _ (ih h)
    | leave n => exact List.mem_cons_of_mem _ (ih h)

end Node

theorem mem_toursOf_iff {step : Visit} {es : List Expr} :
    step ∈ toursOf es ↔ ∃ n ∈ es.map Node.expr, step ∈ n.tour := by
  rw [toursOf_eq_flatMap, ← List.mem_flatMap, List.flatMap_map]
  rfl

theorem Expr.exists_expr_of_mem_tour {step : Visit} {e : Expr} (h : step ∈ e.tour) :
    ∃ e', step = .enter (.expr e') ∨ step = .leave (.expr e') := by
  induction e using Expr.induction_children with
  | node e ih =>
    rcases (Node.mem_tour_iff (n := .expr e)).1 h with rfl | ⟨m, hm, h⟩ | rfl
    · exact ⟨e, .inl rfl⟩
    · obtain ⟨e', rfl⟩ := Node.exists_expr_of_mem_children hm
      exact ih e' hm h
    · exact ⟨e, .inr rfl⟩

/-! ### The nodes of a tree -/

namespace Node

/-- The nodes of a tree, each before all below it. -/
def nodes (n : Node) : List Node := n.preorder.map Prod.snd

/-- The node that a step of a walk enters. -/
def Visit.entered? : Visit → Option Node
  | .enter n => some n
  | .leave _ => none

theorem map_snd_entered (depth : Nat) (steps : List Visit) :
    (Node.entered depth steps).map Prod.snd = steps.filterMap Visit.entered? := by
  induction steps generalizing depth with
  | nil => rfl
  | cons step steps ih =>
    cases step with
    | enter n => exact congrArg (n :: ·) (ih (depth + 1))
    | leave n => exact ih (depth - 1)

theorem nodes_eq_filterMap (n : Node) : n.nodes = n.tour.filterMap Visit.entered? :=
  map_snd_entered 0 n.tour

theorem nodes_eq (n : Node) : n.nodes = n :: n.children.flatMap nodes := by
  have hchildren : (fun c : Node => c.tour.filterMap Visit.entered?) = nodes :=
    funext fun c => (nodes_eq_filterMap c).symm
  have hbelow : (n.children.flatMap tour ++ [Visit.leave n]).filterMap Visit.entered? =
      n.children.flatMap nodes := by
    rw [List.filterMap_append, List.filterMap_flatMap, hchildren]
    exact List.append_nil _
  rw [nodes_eq_filterMap, tour_eq]
  exact congrArg (n :: ·) hbelow

theorem mem_nodes_iff {m n : Node} : m ∈ n.nodes ↔ m = n ∨ ∃ c ∈ n.children, m ∈ c.nodes := by
  rw [nodes_eq, List.mem_cons, List.mem_flatMap]

end Node

end GeoLint
