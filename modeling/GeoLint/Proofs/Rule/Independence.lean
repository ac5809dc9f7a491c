import GeoLint.Proofs.Rule.Findings
import Mathlib.Data.List.Basic

/-!
# Rules do not interfere

A rule that only reports (`Rule.OnlyReports`) neither breaks off nor finds anything in the name of
another rule.  What it finds by itself is what its callbacks report when it is run in its context
(`Engine.run_eq_own`).  An engine with such rules finds what each of them finds by itself, one rule
after the other (`Engine.runRules_eq`), and what a rule finds by itself depends on no setting but its
own (`Engine.own_congr`).  So the findings of the other rules stay what they are, in content and
order, when a rule is turned off or set otherwise: `rules_do_not_interfere`.
-/

namespace GeoLint

/-- The finding is a report made in the context. -/
def Context.Reports (ctx : Context) (f : Finding) : Prop :=
  ∃ override node message suggestions, f = ctx.reportAs override node message suggestions

/-- The rule and its callbacks never break off and do nothing but report. -/
structure Rule.OnlyReports (r : Rule) : Prop where
  /-- Every context gets a visitor, and all that is found is reported. -/
  create : ∀ ctx, ∃ (first : List Finding) (v : Visitor) (found : Call → List Finding),
    r.create ctx = .ok (first, v) ∧ (∀ c, v.call c = .ok (found c)) ∧
      ∀ f, (f ∈ first ∨ ∃ c, f ∈ found c) → ctx.Reports f

/-! ### One rule -/

theorem Rule.OnlyReports.run {r : Rule} (h : r.OnlyReports) (ctx : Context) :
    ∃ found, r.run ctx = .ok found ∧ ∀ f ∈ found, ctx.Reports f := by
  obtain ⟨first, v, found, hcreate, hcall, hreports⟩ := h.create ctx
  refine ⟨first ++ ctx.script.calls.flatMap found, ?_, fun f hf => hreports f ?_⟩
  · rw [run_of_ok hcreate, Visitor.walk_tour_of_call hcall]
    rfl
  · rcases List.mem_append.1 hf with hf | hf
    · exact .inl hf
    · obtain ⟨c, -, hf⟩ := List.mem_flatMap.1 hf
      exact .inr ⟨c, hf⟩

/-- A rule that does nothing but check each statement only reports, if its check does. -/
theorem Rule.onlyReports_of_create {r : Rule} {check : Context → Statement → List Finding}
    (h : ∀ ctx, r.create ctx = .ok ([], { enterStatement := fun s => .ok (check ctx s) }))
    (hcheck : ∀ ctx s, ∀ f ∈ check ctx s, ctx.Reports f) : r.OnlyReports where
  create ctx := by
    refine ⟨_, _, Call.checked (check ctx), h ctx, fun c => ?_, ?_⟩
    · cases c <;> rfl
    · rintro f (hf | ⟨c, hf⟩)
      · cases hf
      · cases c with
        | enterStatement s => exact hcheck ctx s f hf
        | _ => cases hf

theorem UnknownCommand.onlyReports : UnknownCommand.rule.OnlyReports := by
  refine Rule.onlyReports_of_create (fun _ => rfl) fun ctx s f hf => ?_
  rw [check] at hf
  split at hf
  · cases hf
  · exact ⟨_, _, _, _, List.mem_singleton.1 hf⟩

theorem ArgumentTypes.onlyReports : ArgumentTypes.rule.OnlyReports := by
  refine Rule.onlyReports_of_create (fun _ => rfl) fun ctx s f hf => ?_
  rw [check] at hf
  split at hf
  · cases hf
  · rcases List.mem_append.1 hf with hf | hf
    · rw [checkCount] at hf
      split at hf
      · cases hf
      · exact ⟨_, _, _, _, List.mem_singleton.1 hf⟩
    · obtain ⟨arg, -, message, suggestions, hf⟩ := exists_of_mem_checkTypes hf
      exact ⟨_, _, _, _, hf⟩

/-! ### Engines -/

namespace Engine

variable (e : Engine) (source : String) (script : Script)

/-- The rule is not turned off. -/
def isOn (r : Rule) : Bool := (e.config.severityFor r.id r.severity).isSome

/-- An engine with the same configuration and catalogue, to which only one rule is registered. -/
def only (r : Rule) : Engine := ((Engine.new e.config e.catalogue).register r).value

/-- What a rule finds by itself. -/
def own (r : Rule) : List Finding :=
  match e.config.severityFor r.id r.severity with
  | none => []
  | some severity => (r.run (e.context source script r severity)).toOption.getD []

theorem own_of_off {r : Rule} (h : e.isOn r = false) : e.own source script r = [] := by
  rw [isOn, Option.isSome_eq_false_iff, Option.isNone_iff_eq_none] at h
  rw [own, h]

theorem flatMap_own_filter (rs : List Rule) :
    (rs.filter e.isOn).flatMap (e.own source script) = rs.flatMap (e.own source script) := by
  induction rs with
  | nil => rfl
  | cons r rs ih =>
    cases hr : e.isOn r with
    | true => rw [List.filter_cons_of_pos hr, List.flatMap_cons, List.flatMap_cons, ih]
    | false =>
      rw [List.filter_cons_of_neg (by simp [hr]), List.flatMap_cons, own_of_off _ _ _ hr,
        List.nil_append, ih]

variable {e source script}

/-- **What a rule that is on finds by itself is what its run gives.** -/
theorem run_eq_own {r : Rule} (h : r.OnlyReports) {severity : Severity}
    (hon : e.config.severityFor r.id r.severity = some severity) :
    r.run (e.context source script r severity) = .ok (e.own source script r) := by
  obtain ⟨found, hrun, -⟩ := h.run (e.context source script r severity)
  simp only [own, hon, hrun]
  rfl

theorem ruleId_of_mem_own {r : Rule} (h : r.OnlyReports) {f : Finding}
    (hf : f ∈ e.own source script r) : f.ruleId = r.id := by
  cases hon : e.config.severityFor r.id r.severity with
  | none =>
    rw [own, hon] at hf
    cases hf
  | some severity =>
    obtain ⟨found, hrun, hreports⟩ := h.run (e.context source script r severity)
    obtain rfl := Except.ok.inj (hrun.symm.trans (run_eq_own h hon))
    obtain ⟨override, node, message, suggestions, rfl⟩ := hreports f hf
    rfl

/-- A rule reads no setting but its own. -/
theorem own_congr {r : Rule} {config' : Config}
    (h : config'.setting? r.id = e.config.setting? r.id) :
    (e.setConfig config').own source script r = e.own source script r := by
  have hseverity : config'.severityFor r.id r.severity = e.config.severityFor r.id r.severity := by
    rw [Config.severityFor, Config.severityFor, h]
  have hoptions : config'.optionsFor r.id = e.config.optionsFor r.id := by
    rw [Config.optionsFor, Config.optionsFor, h]
  simp only [own, setConfig, context, hseverity, hoptions]

/-- **Each rule adds what it finds by itself.** -/
theorem runRules_eq {rs : List Rule} (h : ∀ r ∈ rs, r.OnlyReports) :
    (e.runRules source script rs).value = .ok (rs.flatMap (e.own source script)) := by
  induction rs with
  | nil => rfl
  | cons r rs ih =>
    rw [List.forall_mem_cons] at h
    rw [runRules, List.flatMap_cons]
    cases hon : e.config.severityFor r.id r.severity with
    | none =>
      simp only [own, hon]
      exact ih h.2
    | some severity =>
      simp only [run_eq_own h.1 hon, ih h.2]
      rfl

theorem lint_of_onlyReports (hparse : Script.parse source = .ok script)
    (h : ∀ r ∈ e.rules.rules, r.OnlyReports) (file : Option String) :
    (e.lint source file).value =
      .ok ⟨file, e.rules.rules.flatMap (e.own source script)⟩ := by
  rw [lint, hparse]
  simp only [runRules_eq h]

theorem lint_only {r : Rule} (hparse : Script.parse source = .ok script) (h : r.OnlyReports)
    (file : Option String) :
    ((e.only r).lint source file).value = .ok ⟨file, e.own source script r⟩ := by
  have hall : ∀ r' ∈ (e.only r).rules.rules, r'.OnlyReports := List.forall_mem_singleton.2 h
  have hown : (e.only r).rules.rules.flatMap ((e.only r).own source script) =
      e.own source script r := List.flatMap_singleton (e.own source script) r
  rw [lint_of_onlyReports hparse hall, hown]

/-- What the other rules find is left when the findings in one rule's name are left out, and it
does not depend on how that rule is set. -/
theorem filter_flatMap_own {rs : List Rule} (h : ∀ r ∈ rs, r.OnlyReports) {id : String}
    {config' : Config} (hset : ∀ other ≠ id, config'.setting? other = e.config.setting? other) :
    (rs.flatMap ((e.setConfig config').own source script)).filter (fun f => f.ruleId ≠ id) =
      (rs.flatMap (e.own source script)).filter (fun f => f.ruleId ≠ id) := by
  rw [List.filter_flatMap, List.filter_flatMap]
  refine List.flatMap_congr fun r hr => ?_
  by_cases hid : r.id = id
  · have hnone (e : Engine) :
        (e.own source script r).filter (fun f => f.ruleId ≠ id) = [] := by
      rw [List.filter_eq_nil_iff]
      intro f hf
      simp [ruleId_of_mem_own (h r hr) hf, hid]
    rw [hnone, hnone]
  · rw [own_congr (hset r.id hid)]

end Engine

/-- Every finding is an error, a warning or an information. -/
theorem LintResult.count_add (r : LintResult) :
    r.count .error + r.count .warning + r.count .info = r.findings.length := by
  obtain ⟨file, findings⟩ := r
  simp only [count]
  induction findings with
  | nil => rfl
  | cons f findings ih =>
    cases hf : f.severity <;> simp [hf] <;> omega

/-- **Rules do not interfere.**  Where the source parses and the rules only report, linting gives
the findings that an engine with one rule gives, for each rule that is on, in the order of the
rules, and to set one rule otherwise leaves the findings of the others.  These findings are what the
run of the rule gives, which calls its callbacks once each in the order of the script.  A source that
does not parse gives one error, whatever the rules are. -/
theorem rules_do_not_interfere (e : Engine) (source : String) (file : Option String) :
    (∀ script, Script.parse source = .ok script → (∀ r ∈ e.rules.rules, r.OnlyReports) →
      ∃ own : Rule → List Finding,
        (∀ r ∈ e.rules.rules,
          (∀ severity, e.config.severityFor r.id r.severity = some severity →
            r.run (e.context source script r severity) = .ok (own r)) ∧
          (e.isOn r = false → own r = []) ∧
          ((e.only r).lint source file).value = .ok ⟨file, own r⟩ ∧
          ∀ f ∈ own r, f.ruleId = r.id) ∧
        (e.lint source file).value = .ok ⟨file, (e.rules.rules.filter e.isOn).flatMap own⟩ ∧
        ∀ (id : String) (config' : Config),
          (∀ other ≠ id, config'.setting? other = e.config.setting? other) →
          (∀ r ∈ e.rules.rules, r.id ≠ id →
            (((e.setConfig config').only r).lint source file).value = .ok ⟨file, own r⟩) ∧
          ∃ found, ((e.setConfig config').lint source file).value = .ok ⟨file, found⟩ ∧
            found.filter (fun f => f.ruleId ≠ id) =
              ((e.rules.rules.filter e.isOn).flatMap own).filter (fun f => f.ruleId ≠ id)) ∧
    (∀ (r : Rule) (ctx : Context) (first : List Finding) (v : Visitor),
      r.create ctx = .ok (first, v) →
      r.run ctx = (fun found => first ++ List.flatten found) <$>
        (Call.enterScript ctx.script ::
            (ctx.script.body.flatMap fun s => [.enterStatement s, .leaveStatement s]) ++
          [Call.leaveScript ctx.script]).mapM v.call) ∧
    (∀ error, Script.parse source = .error error →
      (e.lint source file).value = .ok ⟨file, [error.toFinding]⟩ ∧
        error.toFinding.ruleId = "parse-error" ∧ error.toFinding.severity = .error) ∧
    ∀ result, (e.lint source file).value = .ok result →
      result.count .error + result.count .warning + result.count .info =
        result.findings.length := by
  refine ⟨fun script hparse h => ⟨e.own source script, ?_, ?_, ?_⟩, ?_, ?_, ?_⟩
  · intro r hr
    exact ⟨fun severity hon => Engine.run_eq_own (h r hr) hon, Engine.own_of_off e source script,
      Engine.lint_only hparse (h r hr) file, fun f hf => Engine.ruleId_of_mem_own (h r hr) hf⟩
  · rw [Engine.flatMap_own_filter]
    exact Engine.lint_of_onlyReports hparse h file
  · intro id config' hset
    refine ⟨fun r hr hid => ?_, _,
      Engine.lint_of_onlyReports (e := e.setConfig config') hparse h file, ?_⟩
    · rw [Engine.lint_only hparse (h r hr), Engine.own_congr (hset r.id hid)]
    · rw [Engine.flatMap_own_filter]
      exact Engine.filter_flatMap_own h hset
  · intro r ctx first v hcreate
    rw [Rule.run_of_ok hcreate, Visitor.walk_tour, ← comp_map]
    rfl
  · intro error hparse
    refine ⟨?_, rfl, rfl⟩
    rw [Engine.lint, hparse]
  · exact fun result _ => result.count_add

/-- What is reported about a call to show that it was made. -/
def Context.echo (ctx : Context) : Call → Finding
  | .enterScript s => ctx.report (.script s) "start" []
  | .enterStatement s => ctx.report (.statement s) "enter" []
  | .leaveStatement s => ctx.report (.statement s) "leave" []
  | .leaveScript s => ctx.report (.script s) "end" []

/-- A rule that reports each call of its callbacks. -/
def Rule.echo : Rule where
  id := "echo"
  severity := .info
  create ctx := .ok ([],
    { enterScript := fun s => .ok [ctx.echo (.enterScript s)]
      enterStatement := fun s => .ok [ctx.echo (.enterStatement s)]
      leaveStatement := fun s => .ok [ctx.echo (.leaveStatement s)]
      leaveScript := fun s => .ok [ctx.echo (.leaveScript s)] })

theorem Rule.onlyReports_echo : Rule.echo.OnlyReports where
  create ctx := by
    refine ⟨[], _, fun c => [ctx.echo c], rfl, fun c => by cases c <;> rfl, ?_⟩
    rintro f (hf | ⟨c, hf⟩)
    · cases hf
    · rw [List.mem_singleton.1 hf]
      cases c <;> exact ⟨none, _, _, _, rfl⟩

/-- Three rules over two statements, one of them with nested arguments.  The rule in the middle
reports its calls, in their order and between what the other two find.  It is turned off then. -/
theorem rules_do_not_interfere_echo :
    let e : Engine := ⟨⟨[UnknownCommand.rule, .echo, ArgumentTypes.rule]⟩, .standard,
      .ofRecords [⟨"G( <Number> )", "G", "", [], ""⟩]⟩
    let off : Config := ⟨("echo", ⟨.off, [], .text "off"⟩) :: Config.standard.rules⟩
    let source := "F({(1, 2), (3)}, H(4))\nG()"
    (∀ r ∈ e.rules.rules, r.OnlyReports) ∧ (e.setConfig off).isOn .echo = false ∧
    (∀ other ≠ "echo", off.setting? other = e.config.setting? other) ∧
    ∃ script unknown echoed mistaken left, Script.parse source = .ok script ∧
      UnknownCommand.rule.run (e.context source script UnknownCommand.rule .error) = .ok unknown ∧
      Rule.echo.run (e.context source script .echo .info) = .ok echoed ∧
      ArgumentTypes.rule.run (e.context source script ArgumentTypes.rule .warning) =
        .ok mistaken ∧
      (e.lint source none).value = .ok ⟨none, unknown ++ echoed ++ mistaken⟩ ∧
      (unknown ++ echoed ++ mistaken).map (fun f => (f.ruleId, f.message, f.span.start.line)) =
        [("no-unknown-command", "Unknown command \"F\"", 1),
          ("echo", "start", 1), ("echo", "enter", 1), ("echo", "leave", 1),
          ("echo", "enter", 2), ("echo", "leave", 2), ("echo", "end", 1),
          ("correct-arg-types", "Command \"G\" expects 1 argument(s) but got 0", 2)] ∧
      ((e.setConfig off).lint source none).value = .ok ⟨none, left⟩ ∧
      left.filter (fun f => f.ruleId ≠ "echo") =
        (unknown ++ echoed ++ mistaken).filter (fun f => f.ruleId ≠ "echo") := by
  intro e off source
  obtain ⟨script, hparse⟩ : ∃ script, Script.parse source = .ok script := by
    have hok : (Script.parse source).isOk = true := by decide +kernel
    cases h : Script.parse source with
    | ok script => exact ⟨script, rfl⟩
    | error error => simp [h, Except.isOk, Except.toBool] at hok
  have hrules : ∀ r ∈ e.rules.rules, r.OnlyReports := by
    simp only [e, List.forall_mem_cons]
    exact ⟨UnknownCommand.onlyReports, Rule.onlyReports_echo, ArgumentTypes.onlyReports, by simp⟩
  have hset : ∀ other ≠ "echo", off.setting? other = e.config.setting? other := by
    intro other hother
    have hne : (other == "echo") = false := beq_false_of_ne hother
    rw [Config.setting?, List.lookup_cons, hne]
    rfl
  obtain ⟨own, hown, hlint, hchange⟩ :=
    (rules_do_not_interfere e source none).1 script hparse hrules
  obtain ⟨-, left, hleft, hfilter⟩ := hchange "echo" off hset
  have hon : (e.rules.rules.filter e.isOn).flatMap own =
      own UnknownCommand.rule ++ own .echo ++ own ArgumentTypes.rule := by
    have hall : e.rules.rules.filter e.isOn = e.rules.rules := rfl
    rw [hall]
    simp [e]
  rw [hon] at hlint hfilter
  have hfound : some ((own UnknownCommand.rule ++ own .echo ++ own ArgumentTypes.rule).map
      fun f => (f.ruleId, f.message, f.span.start.line)) =
      (e.lint source none).value.toOption.map fun result =>
        result.findings.map fun f => (f.ruleId, f.message, f.span.start.line) := by
    rw [hlint]
    rfl
  exact ⟨hrules, by decide, hset, script, _, _, _, left, hparse,
    (hown UnknownCommand.rule (by simp [e])).1 .error rfl, (hown .echo (by simp [e])).1 .info rfl,
    (hown ArgumentTypes.rule (by simp [e])).1 .warning rfl, hlint,
    Option.some.inj (hfound.trans (by decide +kernel)), hleft, hfilter⟩

end GeoLint
