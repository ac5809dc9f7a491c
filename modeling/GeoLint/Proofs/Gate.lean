import GeoLint.Proofs.Rule.Findings
import GeoLint.Proofs.Syntax.Blank

/-!
# Which commands must not run

A command is held back if it has a diagnostic of severity `error`.  `hasErrors_iff` says when that
is so, in terms of the tree of the command, the catalogue and the configuration alone: the command
does not parse, or one of its statements is `IsUnknown` or `IsMiscounted` where the rule that looks
for it is set to `error`.  What types the arguments have plays no part.

Each rule gets one lemma for a statement (`UnknownCommand.exists_error_iff`,
`ArgumentTypes.exists_error_iff`), from which `Engine.exists_error_iff` follows for a script.
-/

namespace GeoLint

namespace Statement

/-- The statement is no assignment, and the catalogue does not know its command. -/
def IsUnknown (c : Catalogue) (s : Statement) : Prop :=
  (¬ ∃ e, s.arguments = [e] ∧ ∀ f as span, e ≠ .call f as span) ∧ c.knows s.command.text = false

/-- The catalogue knows the command, but not with so few or so many arguments. -/
def IsMiscounted (c : Catalogue) (s : Statement) : Prop :=
  c.knows s.command.text = true ∧
    ∃ o, c.bestMatch? s.command.text s.arguments.length = some o ∧
      ¬ (o.required ≤ s.arguments.length ∧ s.arguments.length ≤ o.total)

theorem isPlainAssignment_iff (s : Statement) : s.isPlainAssignment = true ↔
    ∃ e, s.arguments = [e] ∧ ∀ f as span, e ≠ .call f as span := by
  have hcall (e : Expr) : e.isCall = false ↔ ∀ f as span, e ≠ .call f as span := by
    cases e <;> simp [Expr.isCall]
  rw [isPlainAssignment]
  split
  · rename_i e hargs
    simp [hargs, hcall]
  · rename_i hargs
    simp only [Bool.false_eq_true, false_iff, not_exists, not_and]
    exact fun e he => absurd he (hargs e)

end Statement

theorem Catalogue.knows_of_bestMatch? {c : Catalogue} {name : String} {count : Nat} {o : Overload}
    (h : c.bestMatch? name count = some o) : c.knows name = true := by
  rw [bestMatch?] at h
  rw [knows]
  cases hos : c.overloads? name with
  | none =>
    rw [hos] at h
    cases h
  | some os => rfl

/-! ### One statement -/

theorem UnknownCommand.exists_error_iff (ctx : Context) (s : Statement) :
    (∃ f ∈ check ctx s, f.severity = .error) ↔
      ctx.severity = .error ∧ s.IsUnknown ctx.catalogue := by
  rw [Statement.IsUnknown, ← Statement.isPlainAssignment_iff, check]
  by_cases h : (s.isPlainAssignment || ctx.catalogue.knows s.command.text) = true
  · rw [if_pos h]
    rcases Bool.or_eq_true_iff.1 h with h | h <;> simp [h]
  · rw [if_neg h]
    rw [Bool.or_eq_true, not_or, Bool.not_eq_true, Bool.not_eq_true] at h
    simp [h.1, h.2, Context.report, Context.reportAs]

namespace ArgumentTypes

/-- An argument of the wrong type is a warning, however the rule is set. -/
theorem severity_of_mem_checkTypes {ctx : Context} {s : Statement} {f : Finding} {index : Nat}
    {args : List Expr} {slots : List Parameter} (h : f ∈ checkTypes ctx s index args slots) :
    f.severity = .warning := by
  obtain ⟨arg, -, message, suggestions, rfl⟩ := exists_of_mem_checkTypes h
  rfl

theorem exists_error_of_checkCount (ctx : Context) (s : Statement) (o : Overload) :
    (∃ f ∈ checkCount ctx s o, f.severity = .error) ↔ ctx.severity = .error ∧
      ¬ (o.required ≤ s.arguments.length ∧ s.arguments.length ≤ o.total) := by
  rw [checkCount]
  by_cases h : o.required ≤ s.arguments.length ∧ s.arguments.length ≤ o.total
  · simp [h]
  · have hcount : (o.required ≤ s.arguments.length && s.arguments.length ≤ o.total) = false := by
      rw [Bool.eq_false_iff]
      simpa using h
    simp only [hcount, h]
    simp [Context.report, Context.reportAs]

theorem exists_error_iff (ctx : Context) (s : Statement) :
    (∃ f ∈ check ctx s, f.severity = .error) ↔
      ctx.severity = .error ∧ s.IsMiscounted ctx.catalogue := by
  rw [Statement.IsMiscounted, check]
  cases hmatch : ctx.catalogue.bestMatch? s.command.text s.arguments.length with
  | none => simp
  | some o =>
    have hknows := Catalogue.knows_of_bestMatch? hmatch
    -- Of the two lists of findings the second holds warnings only.
    have htypes : ¬ ∃ f ∈ checkTypes ctx s 0 s.arguments o.parameters, f.severity = .error := by
      rintro ⟨f, hf, herror⟩
      rw [severity_of_mem_checkTypes hf] at herror
      cases herror
    simp only [List.mem_append, or_and_right, exists_or, htypes, or_false,
      exists_error_of_checkCount, hknows, Option.some.injEq, exists_eq_left', true_and]

end ArgumentTypes

/-! ### One command -/

namespace Engine

variable (e : Engine) (source : String) (script : Script)

/-- A rule that finds an error exactly in the statements that are `Bad`, if it is set so. -/
theorem exists_error_of_found {r : Rule} {check : Context → Statement → List Finding}
    {Bad : Catalogue → Statement → Prop}
    (hcheck : ∀ ctx s, (∃ f ∈ check ctx s, f.severity = .error) ↔
      ctx.severity = .error ∧ Bad ctx.catalogue s) :
    (∃ f ∈ e.found source script r check, f.severity = .error) ↔
      e.config.severityFor r.id r.severity = some .error ∧
        ∃ s ∈ script.body, Bad e.catalogue s := by
  constructor
  · rintro ⟨f, hf, herror⟩
    obtain ⟨severity, hseverity, s, hs, hf⟩ := (mem_found e source script).1 hf
    obtain ⟨hctx, hbad⟩ := (hcheck _ s).1 ⟨f, hf, herror⟩
    have hctx : severity = .error := hctx
    rw [hctx] at hseverity
    exact ⟨hseverity, s, hs, hbad⟩
  · rintro ⟨hseverity, s, hs, hbad⟩
    obtain ⟨f, hf, herror⟩ := (hcheck (e.context source script r .error) s).2 ⟨rfl, hbad⟩
    exact ⟨f, (mem_found e source script).2 ⟨.error, hseverity, s, hs, hf⟩, herror⟩

theorem exists_error_iff :
    (∃ f ∈ e.findings source script, f.severity = .error) ↔
      e.config.severityFor "no-unknown-command" .error = some .error ∧
          (∃ s ∈ script.body, s.IsUnknown e.catalogue) ∨
        e.config.severityFor "correct-arg-types" .warning = some .error ∧
          ∃ s ∈ script.body, s.IsMiscounted e.catalogue := by
  have hunknown := exists_error_of_found e source script (r := UnknownCommand.rule)
    UnknownCommand.exists_error_iff
  have hmiscounted := exists_error_of_found e source script (r := ArgumentTypes.rule)
    ArgumentTypes.exists_error_iff
  rw [findings]
  simp only [List.mem_append, or_and_right, exists_or, hunknown, hmiscounted]
  rfl

end Engine

theorem hasErrors_eq_true_iff (config : Option Config) {command : String}
    (h : Text.blank command.toList = false) : hasErrors config command = true ↔
      ∃ f ∈ (Engine.forCommands config).reported command, f.severity = .error := by
  rw [hasErrors, lintCommand_eq, h, List.any_eq_true]
  simp only [Bool.false_eq_true, if_false, List.mem_map, decide_eq_true_eq]
  constructor
  · rintro ⟨d, ⟨f, hf, rfl⟩, herror⟩
    exact ⟨f, hf, herror⟩
  · rintro ⟨f, hf, herror⟩
    exact ⟨.ofFinding f, ⟨f, hf, rfl⟩, herror⟩

/-- **A command is held back for what its tree says.**

It does not parse; or the rule on unknown commands is set to `error` and one of its statements is no
assignment and has a command that the bundled catalogue does not know; or the rule on arguments is
set to `error` and one of its statements has fewer or more arguments than the overload it is held
against.  Types of arguments never hold a command back. -/
theorem hasErrors_iff (config : Option Config) (command : String) :
    (hasErrors config command = true ↔
      (∃ e, Script.parse command = .error e) ∨
      ∃ script, Script.parse command = .ok script ∧
        ((config.getD .standard).severityFor "no-unknown-command" .error = some .error ∧
            (∃ s ∈ script.body, s.IsUnknown .bundled) ∨
          (config.getD .standard).severityFor "correct-arg-types" .warning = some .error ∧
            ∃ s ∈ script.body, s.IsMiscounted .bundled)) ∧
    ∀ ctx s index args slots, ∀ f ∈ ArgumentTypes.checkTypes ctx s index args slots,
      f.severity = .warning := by
  refine ⟨?_, fun ctx s index args slots f hf => ArgumentTypes.severity_of_mem_checkTypes hf⟩
  by_cases hblank : Text.blank command.toList = true
  · -- A blank command is not even parsed, but if it were there would be no statements.
    obtain ⟨script, hparse, hbody⟩ := parse_blank hblank
    have hfalse : hasErrors config command = false := by
      rw [hasErrors, lintCommand_eq, if_pos hblank]
      rfl
    simp [hfalse, hparse, hbody]
  · rw [hasErrors_eq_true_iff config (Bool.eq_false_iff.2 hblank), Engine.reported]
    cases hparse : Script.parse command with
    | error error =>
      have herror : error.toFinding.severity = .error := rfl
      simp [herror]
    | ok script =>
      simp only [Engine.exists_error_iff, Engine.config_forCommands, Engine.catalogue_forCommands,
        reduceCtorEq, exists_false, false_or, Except.ok.injEq, exists_eq_left']

end GeoLint
