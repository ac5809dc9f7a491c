import GeoLint.Proofs.Rule.Findings
import GeoLint.Proofs.Syntax.Moved

/-!
# What the built-in rules find at other places

The built-in rules look at names, at the shape of arguments and at the catalogue, and never at
places or at the rest of the script.  So what they find in a statement that has been moved is what
they find in the statement itself, moved with it (`UnknownCommand.check_moved`,
`ArgumentTypes.check_moved`).  A context counts only for the name of the rule, its severity and the
catalogue (`Context.Agrees`).
-/

namespace GeoLint

variable (place : Position → Position)

/-- The node at other places. -/
def Node.moved : Node → Node
  | .script s => .script (s.moved place)
  | .statement s => .statement (s.moved place)
  | .expr e => .expr (e.moved place)

/-- The finding at another place. -/
def Finding.moved (f : Finding) : Finding :=
  { f with span := f.span.moved place, node := f.node.map (Node.moved place) }

/-! ### What stays -/

@[simp] theorem Expr.span_moved (e : Expr) : (e.moved place).span = e.span.moved place := by
  cases e <;> rfl

@[simp] theorem Expr.inferredType_moved (e : Expr) :
    (e.moved place).inferredType = e.inferredType := by
  cases e <;> rfl

@[simp] theorem Expr.isCall_moved (e : Expr) : (e.moved place).isCall = e.isCall := by
  cases e <;> rfl

@[simp] theorem Node.span_moved (n : Node) : (n.moved place).span = n.span.moved place := by
  cases n with
  | script s => rfl
  | statement s => rfl
  | expr e => exact e.span_moved place

@[simp] theorem Node.moved_name (n : Name) :
    (Node.name n).moved place = .name (n.moved place) := by
  simp [Node.name, Node.moved, Expr.moved]

@[simp] theorem Node.moved_id (n : Node) : n.moved id = n := by
  cases n with
  | script s => rw [Node.moved, Script.moved, List.map_id'' Statement.moved_id]; rfl
  | statement s => rw [Node.moved, Statement.moved_id]
  | expr e => rw [Node.moved, Expr.moved_id]

@[simp] theorem Finding.moved_id (f : Finding) : f.moved id = f := by
  have hnode : f.node.map (Node.moved id) = f.node := by cases f.node <;> simp
  rw [Finding.moved, hnode]
  rfl

@[simp] theorem length_movedAll (es : List Expr) : (movedAll place es).length = es.length := by
  rw [movedAll_eq_map, List.length_map]

@[simp] theorem Statement.isPlainAssignment_moved (s : Statement) :
    (s.moved place).isPlainAssignment = s.isPlainAssignment := by
  obtain ⟨command, arguments, span⟩ := s
  match arguments with
  | [] => rfl
  | [e] => simp [Statement.moved, isPlainAssignment, movedAll]
  | _ :: _ :: _ => rfl

/-! ### What is found -/

/-- The contexts agree in all that the built-in rules report from. -/
structure Context.Agrees (ctx ctx' : Context) : Prop where
  /-- In the name of the rule. -/
  ruleId : ctx'.ruleId = ctx.ruleId
  /-- In the severity. -/
  severity : ctx'.severity = ctx.severity
  /-- In the known commands. -/
  catalogue : ctx'.catalogue = ctx.catalogue

variable {place} {ctx ctx' : Context}

theorem Context.Agrees.reportAs (h : ctx.Agrees ctx') (override : Option Severity) (n : Node)
    (message : String) (suggestions : List String) :
    ctx'.reportAs override (n.moved place) message suggestions =
      (ctx.reportAs override n message suggestions).moved place := by
  simp [Context.reportAs, Finding.moved, h.ruleId, h.severity]

theorem Context.Agrees.report (h : ctx.Agrees ctx') (n : Node) (message : String)
    (suggestions : List String) : ctx'.report (n.moved place) message suggestions =
      (ctx.report n message suggestions).moved place :=
  h.reportAs none n message suggestions

theorem UnknownCommand.check_moved (h : ctx.Agrees ctx') (s : Statement) :
    check ctx' (s.moved place) = (check ctx s).map (Finding.moved place) := by
  rw [check, check, h.catalogue, Statement.isPlainAssignment_moved]
  change (if s.isPlainAssignment || ctx.catalogue.knows s.command.text then _ else _) = _
  split
  · rfl
  · rw [List.map_singleton, ← h.report, Node.moved_name]
    rfl

namespace ArgumentTypes

theorem checkCount_moved (h : ctx.Agrees ctx') (s : Statement) (o : Overload) :
    checkCount ctx' (s.moved place) o = (checkCount ctx s o).map (Finding.moved place) := by
  have hlength : (s.moved place).arguments.length = s.arguments.length :=
    length_movedAll place s.arguments
  rw [checkCount, checkCount, hlength]
  split
  · rfl
  · rw [List.map_singleton, ← h.report, Node.moved_name]
    rfl

theorem checkTypes_moved (h : ctx.Agrees ctx') (s : Statement) (index : Nat) (args : List Expr)
    (slots : List Parameter) :
    checkTypes ctx' (s.moved place) index (movedAll place args) slots =
      (checkTypes ctx s index args slots).map (Finding.moved place) := by
  induction args generalizing index slots with
  | nil => rfl
  | cons arg args ih =>
    cases slots with
    | nil => rfl
    | cons slot slots =>
      have hargument : checkArgument ctx' (s.moved place) index (arg.moved place) slot =
          (checkArgument ctx s index arg slot).map (Finding.moved place) := by
        rw [checkArgument, checkArgument, fits, fits, Expr.inferredType_moved]
        split
        · rfl
        · rw [List.map_singleton, ← h.reportAs]
          rfl
      rw [movedAll, checkTypes, checkTypes, List.map_append, ih, hargument]

theorem check_moved (h : ctx.Agrees ctx') (s : Statement) :
    check ctx' (s.moved place) = (check ctx s).map (Finding.moved place) := by
  have hlength : (s.moved place).arguments.length = s.arguments.length :=
    length_movedAll place s.arguments
  have hcommand : (s.moved place).command.text = s.command.text := rfl
  rw [check, check, h.catalogue, hlength, hcommand]
  cases ctx.catalogue.bestMatch? s.command.text s.arguments.length with
  | none => rfl
  | some o =>
    rw [List.map_append, ← checkCount_moved h, ← checkTypes_moved h]
    rfl

end ArgumentTypes

/-! ### The built-in rules -/

/-- What a rule reports about each statement, wherever the statement stands. -/
structure Rule.ChecksBy (r : Rule) (check : Context → Statement → List Finding) : Prop where
  /-- The rule finds what the check finds in each statement. -/
  run : ∀ ctx, r.run ctx = .ok (ctx.script.body.flatMap (check ctx))
  /-- The check does not depend on places. -/
  moved : ∀ place {ctx ctx'}, Context.Agrees ctx ctx' → ∀ s : Statement,
    check ctx' (s.moved place) = (check ctx s).map (Finding.moved place)

theorem check_eq_of_agrees {r : Rule} {check : Context → Statement → List Finding}
    (h : r.ChecksBy check) (hctx : ctx.Agrees ctx') (s : Statement) :
    check ctx' s = check ctx s := by
  have hmoved := h.moved id hctx s
  rwa [Statement.moved_id, List.map_id'' Finding.moved_id] at hmoved

theorem RuleTable.exists_checksBy {r : Rule} (h : r ∈ RuleTable.builtin.rules) :
    ∃ check, r.ChecksBy check := by
  rw [RuleTable.rules_builtin, List.mem_pair] at h
  obtain rfl | rfl := h
  · exact ⟨_, UnknownCommand.run_eq, fun _ => UnknownCommand.check_moved⟩
  · exact ⟨_, ArgumentTypes.run_eq, fun _ => ArgumentTypes.check_moved⟩

/-- An engine with one such rule never breaks off. -/
theorem Engine.lint_single {r : Rule} {check : Context → Statement → List Finding}
    (h : r.ChecksBy check) {source : String} {script : Script}
    (hparse : Script.parse source = .ok script) (config : Config) (catalogue : Catalogue)
    (file : Option String) :
    ((Engine.mk ⟨[r]⟩ config catalogue).lint source file).value =
      .ok ⟨file, (Engine.mk ⟨[r]⟩ config catalogue).found source script r check⟩ := by
  have hrun := runRules_cons ⟨⟨[r]⟩, config, catalogue⟩ source script h.run []
  rw [runRules, Except.map, List.append_nil] at hrun
  rw [lint, hparse]
  simp only [hrun]

end GeoLint
