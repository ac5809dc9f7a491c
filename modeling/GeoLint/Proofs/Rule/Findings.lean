import GeoLint.Engine
import GeoLint.Proofs.Rule.Walk

/-!
# What the built-in rules find

A walk through a script calls back for the script and its statements only
(`Visitor.walk_tour_of_call`).  So a rule that listens to nothing but statements finds what its
check finds in each, in the order of the script (`Rule.run_of_create`), and both built-in rules are
of this kind.

`Engine.lint_builtin` puts this together: an engine with the built-in rules never breaks off, and
what it reports is `Engine.reported`.
-/

namespace GeoLint

open Node (Visit)

/-! ### Rules that check each statement -/

/-- What a check of the statements finds at a call: it listens when a statement is reached. -/
def Call.checked (check : Statement → List Finding) : Call → List Finding
  | .enterStatement s => check s
  | _ => []

theorem Script.flatMap_checked (check : Statement → List Finding) (s : Script) :
    s.calls.flatMap (Call.checked check) = s.body.flatMap check := by
  simp [calls, Call.checked, List.flatMap_assoc]

/-- The findings of a rule whose only callback is `check` on each statement. -/
theorem Rule.run_of_create {r : Rule} {check : Context → Statement → List Finding}
    (h : ∀ ctx, r.create ctx = .ok ([], { enterStatement := fun s => .ok (check ctx s) }))
    (ctx : Context) : r.run ctx = .ok (ctx.script.body.flatMap (check ctx)) := by
  have hcall (c : Call) : Visitor.call { enterStatement := fun s => .ok (check ctx s) } c =
      .ok (c.checked (check ctx)) := by
    cases c <;> rfl
  rw [run_of_ok (h ctx), Visitor.walk_tour_of_call hcall, Script.flatMap_checked]
  rfl

theorem UnknownCommand.run_eq (ctx : Context) :
    UnknownCommand.rule.run ctx = .ok (ctx.script.body.flatMap (UnknownCommand.check ctx)) :=
  Rule.run_of_create (fun _ => rfl) ctx

theorem ArgumentTypes.run_eq (ctx : Context) :
    ArgumentTypes.rule.run ctx = .ok (ctx.script.body.flatMap (ArgumentTypes.check ctx)) :=
  Rule.run_of_create (fun _ => rfl) ctx

/-! ### Where findings are -/

/-- The finding is about one of the nodes and stands where it does. -/
def Finding.IsAbout (f : Finding) (ns : List Node) : Prop :=
  ∃ n ∈ ns, f.node = some n ∧ f.span = n.span

theorem UnknownCommand.isAbout_of_mem_check {ctx : Context} {s : Statement} {f : Finding}
    (h : f ∈ UnknownCommand.check ctx s) : f.IsAbout (Node.statement s).children := by
  rw [UnknownCommand.check] at h
  split at h
  · cases h
  · obtain rfl := List.mem_singleton.1 h
    exact ⟨.name s.command, List.mem_cons_self, rfl, rfl⟩

namespace ArgumentTypes

/-- What is reported about types is reported about one of the arguments. -/
theorem exists_of_mem_checkTypes {ctx : Context} {s : Statement} {f : Finding} {index : Nat}
    {args : List Expr} {slots : List Parameter} (h : f ∈ checkTypes ctx s index args slots) :
    ∃ arg ∈ args, ∃ message suggestions,
      f = ctx.reportAs (some .warning) (.expr arg) message suggestions := by
  induction args generalizing index slots with
  | nil => cases h
  | cons arg args ih =>
    cases slots with
    | nil => cases h
    | cons slot slots =>
      rcases List.mem_append.1 h with h | h
      · rw [checkArgument] at h
        split at h
        · cases h
        · exact ⟨arg, List.mem_cons_self, _, _, List.mem_singleton.1 h⟩
      · obtain ⟨arg', harg', hf⟩ := ih h
        exact ⟨arg', List.mem_cons_of_mem _ harg', hf⟩

theorem isAbout_of_mem_check {ctx : Context} {s : Statement} {f : Finding}
    (h : f ∈ check ctx s) : f.IsAbout (Node.statement s).children := by
  rw [check] at h
  split at h
  · cases h
  · rcases List.mem_append.1 h with h | h
    · rw [checkCount] at h
      split at h
      · cases h
      · obtain rfl := List.mem_singleton.1 h
        exact ⟨.name s.command, List.mem_cons_self, rfl, rfl⟩
    · obtain ⟨arg, harg, message, suggestions, rfl⟩ := exists_of_mem_checkTypes h
      exact ⟨.expr arg, List.mem_cons_of_mem _ (List.mem_map_of_mem harg), rfl, rfl⟩

end ArgumentTypes

theorem RuleTable.rules_builtin :
    RuleTable.builtin.rules = [UnknownCommand.rule, ArgumentTypes.rule] :=
  rfl

/-! ### Engines -/

namespace Engine

variable (e : Engine) (source : String) (script : Script)

/-- What a rule finds if its findings are those of `check` in each statement. -/
def found (r : Rule) (check : Context → Statement → List Finding) : List Finding :=
  match e.config.severityFor r.id r.severity with
  | none => []
  | some severity => script.body.flatMap (check (e.context source script r severity))

/-- What the built-in rules find in a script. -/
def findings : List Finding :=
  e.found source script UnknownCommand.rule UnknownCommand.check ++
    e.found source script ArgumentTypes.rule ArgumentTypes.check

theorem mem_found {r : Rule} {check : Context → Statement → List Finding} {f : Finding} :
    f ∈ e.found source script r check ↔
      ∃ severity, e.config.severityFor r.id r.severity = some severity ∧
        ∃ s ∈ script.body, f ∈ check (e.context source script r severity) s := by
  rw [found]
  cases e.config.severityFor r.id r.severity with
  | none => simp
  | some severity => simp

/-- Every finding of the built-in rules is about a node of the script. -/
theorem enter_mem_tour_of_mem_findings {f : Finding} (h : f ∈ e.findings source script) :
    ∃ n, Visit.enter n ∈ script.tour ∧ f.node = some n ∧ f.span = n.span := by
  obtain ⟨s, hs, n, hn, hf⟩ : ∃ s ∈ script.body, f.IsAbout (Node.statement s).children := by
    rcases List.mem_append.1 h with h | h
    · obtain ⟨severity, -, s, hs, h⟩ := (mem_found e source script).1 h
      exact ⟨s, hs, UnknownCommand.isAbout_of_mem_check h⟩
    · obtain ⟨severity, -, s, hs, h⟩ := (mem_found e source script).1 h
      exact ⟨s, hs, ArgumentTypes.isAbout_of_mem_check h⟩
  exact ⟨n, Node.enter_mem_tour_script hs hn, hf⟩

theorem runRules_cons {r : Rule} {check : Context → Statement → List Finding}
    (hrun : ∀ ctx, r.run ctx = .ok (ctx.script.body.flatMap (check ctx))) (rs : List Rule) :
    (e.runRules source script (r :: rs)).value =
      (e.runRules source script rs).value.map (e.found source script r check ++ ·) := by
  rw [runRules, found]
  cases e.config.severityFor r.id r.severity with
  | none => cases (e.runRules source script rs).value <;> rfl
  | some severity =>
    simp only [hrun]
    rfl

theorem runRules_builtin :
    (e.runRules source script RuleTable.builtin.rules).value = .ok (e.findings source script) := by
  rw [RuleTable.rules_builtin, runRules_cons e source script UnknownCommand.run_eq,
    runRules_cons e source script ArgumentTypes.run_eq]
  simp only [runRules, Except.map, findings, List.append_nil]

/-- What there is to report with the built-in rules: that the script does not parse, or what they
find. -/
def reported : List Finding :=
  match Script.parse source with
  | .error error => [error.toFinding]
  | .ok script => e.findings source script

/-- **An engine with the built-in rules never breaks off.** -/
theorem lint_builtin {e : Engine} (h : e.rules = .builtin) (source : String)
    (file : Option String) : (e.lint source file).value = .ok ⟨file, e.reported source⟩ := by
  rw [lint, h, reported]
  cases Script.parse source with
  | error error => rfl
  | ok script => simp only [runRules_builtin]

theorem found_of_severityFor {r : Rule} {severity : Severity}
    (h : e.config.severityFor r.id r.severity = some severity)
    (check : Context → Statement → List Finding) :
    e.found source script r check =
      script.body.flatMap (check (e.context source script r severity)) := by
  rw [found, h]

/-- The report on a script of one statement, with the rules at their usual levels. -/
theorem lint_standard_singleton (catalogue : Catalogue) {source : String} {script : Script}
    {s : Statement} (hparse : Script.parse source = .ok script) (hbody : script.body = [s])
    (file : Option String) :
    let e : Engine := ⟨.builtin, .standard, catalogue⟩
    (e.lint source file).value = .ok ⟨file,
      UnknownCommand.check (e.context source script UnknownCommand.rule .error) s ++
        ArgumentTypes.check (e.context source script ArgumentTypes.rule .warning) s⟩ := by
  intro e
  have hunknown := e.found_of_severityFor source script (r := UnknownCommand.rule) rfl
  have hmistaken := e.found_of_severityFor source script (r := ArgumentTypes.rule) rfl
  rw [lint_builtin rfl, reported, hparse]
  simp only [findings, hunknown, hmistaken, hbody, List.flatMap_singleton]

end Engine

/-- The engine that lints single commands. -/
def Engine.forCommands (config : Option Config) : Engine :=
  ⟨.builtin, config.getD .standard, .bundled⟩

@[simp] theorem Engine.rules_forCommands (config : Option Config) :
    (forCommands config).rules = .builtin := rfl

@[simp] theorem Engine.config_forCommands (config : Option Config) :
    (forCommands config).config = config.getD .standard := rfl

@[simp] theorem Engine.catalogue_forCommands (config : Option Config) :
    (forCommands config).catalogue = .bundled := by
  rw [forCommands]

theorem RuleTable.engine_builtin (config : Option Config) :
    (RuleTable.builtin.engine config).value = .forCommands config := by
  rw [RuleTable.engine, Engine.forCommands]
  -- The catalogue is large, and nothing here depends on what it holds.
  generalize Catalogue.bundled = catalogue
  rfl

/-- The diagnostics of a command are those of the findings, unless it is blank. -/
theorem lintCommand_eq (config : Option Config) (command : String) :
    lintCommand config command = if Text.blank command.toList then [] else
      ((Engine.forCommands config).reported command).map .ofFinding := by
  rw [lintCommand, RuleTable.lintCommand]
  split
  · rfl
  · simp only [RuleTable.engine_builtin, Engine.lint_builtin (Engine.rules_forCommands config)]

end GeoLint
