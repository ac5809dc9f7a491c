import GeoLint.Proofs.Syntax.Tree
import GeoLint.Rule.Basic

/-!
# What a walk calls

A walk through a script takes a step into and out of every node, but only the steps at the script
and at its statements have callbacks (`Visit.call?`).  So a walk comes down to its calls, made one
after the other until one breaks off (`Visitor.walk_eq`), and for a script these are `Script.calls`
(`Script.filterMap_tour`), however deep the arguments are nested.
-/

namespace GeoLint

open Node (Visit)

/-- A call of one of the callbacks of a visitor. -/
inductive Call where
  /-- The walk starts. -/
  | enterScript (s : Script)
  /-- A statement is reached. -/
  | enterStatement (s : Statement)
  /-- A statement has been walked. -/
  | leaveStatement (s : Statement)
  /-- The walk ends. -/
  | leaveScript (s : Script)

/-- The call that a step of a walk makes, if it makes one. -/
def Node.Visit.call? : Visit → Option Call
  | .enter (.script s) => some (.enterScript s)
  | .enter (.statement s) => some (.enterStatement s)
  | .leave (.statement s) => some (.leaveStatement s)
  | .leave (.script s) => some (.leaveScript s)
  | _ => none

/-- The script is entered, each of its statements is entered and left in turn, and the script is
left. -/
def Script.calls (s : Script) : List Call :=
  .enterScript s :: (s.body.flatMap fun t => [.enterStatement t, .leaveStatement t]) ++
    [.leaveScript s]

/-- What a visitor gives when it is called. -/
def Visitor.call (v : Visitor) : Call → Except Failure (List Finding)
  | .enterScript s => v.enterScript s
  | .enterStatement s => v.enterStatement s
  | .leaveStatement s => v.leaveStatement s
  | .leaveScript s => v.leaveScript s

/-- Every step below an expression is one at an expression, and these call nothing. -/
theorem filterMap_toursOf (es : List Expr) : (toursOf es).filterMap Visit.call? = [] := by
  rw [List.filterMap_eq_nil_iff]
  intro step hstep
  rw [toursOf_eq_flatMap, List.mem_flatMap] at hstep
  obtain ⟨e, -, hstep⟩ := hstep
  obtain ⟨e', rfl | rfl⟩ := Expr.exists_expr_of_mem_tour hstep <;> rfl

theorem Statement.filterMap_tour (s : Statement) :
    s.tour.filterMap Visit.call? = [.enterStatement s, .leaveStatement s] := by
  rw [Statement.tour, Visit.around, List.filterMap_cons, List.filterMap_append,
    List.filterMap_append, filterMap_toursOf]
  rfl

/-- **A walk through a script makes the calls of the script**, each once and in order. -/
theorem Script.filterMap_tour (s : Script) : s.tour.filterMap Visit.call? = s.calls := by
  rw [Script.tour, Visit.around, List.filterMap_cons, List.filterMap_append,
    List.filterMap_flatMap]
  simp only [Statement.filterMap_tour]
  rfl

namespace Visitor

variable (v : Visitor)

theorem handle_eq (step : Visit) :
    v.handle step = match step.call? with
      | some c => v.call c
      | none => .ok [] := by
  cases step with
  | enter n | leave n => cases n <;> rfl

/-- A walk makes its calls in order, and the first that breaks off ends it. -/
theorem walk_eq (steps : List Visit) :
    v.walk steps = List.flatten <$> (steps.filterMap Visit.call?).mapM v.call := by
  induction steps with
  | nil => rfl
  | cons step steps ih =>
    rw [walk, ih, handle_eq, List.filterMap_cons]
    cases step.call? with
    | none => cases (steps.filterMap Visit.call?).mapM v.call <;> rfl
    | some c => simp [List.mapM_cons]

theorem walk_tour (s : Script) : v.walk s.tour = List.flatten <$> s.calls.mapM v.call := by
  rw [walk_eq, Script.filterMap_tour]

variable {v}

/-- A visitor that never breaks off finds what each of its calls finds. -/
theorem walk_tour_of_call {found : Call → List Finding} (h : ∀ c, v.call c = .ok (found c))
    (s : Script) : v.walk s.tour = .ok (s.calls.flatMap found) := by
  have hcall : v.call = fun c => pure (found c) := funext h
  rw [walk_tour, hcall, List.mapM_pure, map_pure]
  rfl

end Visitor

theorem Rule.run_of_ok {r : Rule} {ctx : Context} {first : List Finding} {v : Visitor}
    (h : r.create ctx = .ok (first, v)) : r.run ctx = (first ++ ·) <$> v.walk ctx.script.tour := by
  rw [Rule.run, h, map_eq_pure_bind]
  rfl

end GeoLint
