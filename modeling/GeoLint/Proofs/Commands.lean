import GeoLint.Proofs.Entries
import GeoLint.Proofs.Rule.Independence
import GeoLint.Proofs.Syntax.Blank
import Mathlib.Data.List.FinRange
import Mathlib.Data.List.Forall2

/-!
# Single commands and engines

`lintCommand` does not ask an engine about a blank command, and it answers for an engine that breaks
off.  Neither makes a difference with the built-in rules: a blank command has no findings
(`Engine.reported_of_blank`), and an engine with these rules does not break off.  So a command has the
diagnostics of the findings that the engine gives (`lintCommand_eq_map`).

Commands that are linted together are numbered.  What is found in one of them is kept under its own
number (`lintCommands_eq_map`), and no other can take its place (`lookup_lintCommands`).  The main
statement, `lintCommand_agrees`, puts this together.
-/

namespace GeoLint

/-- The diagnostic says where a finding starts, and all else as the finding does. -/
structure Diagnostic.Shows (d : Diagnostic) (f : Finding) : Prop where
  /-- The line is that of its start. -/
  line : d.line = f.span.start.line
  /-- The column is that of its start. -/
  column : d.column = f.span.start.column
  /-- The words are the same. -/
  message : d.message = f.message
  /-- It is as bad. -/
  severity : d.severity = f.severity
  /-- The rule is the same. -/
  ruleId : d.ruleId = f.ruleId
  /-- The suggestions are the same; that there are none is not said by an empty list. -/
  suggestions : d.suggestions = if f.suggestions = [] then none else some f.suggestions

theorem Diagnostic.shows_ofFinding (f : Finding) : (Diagnostic.ofFinding f).Shows f where
  line := rfl
  column := rfl
  message := rfl
  severity := rfl
  ruleId := rfl
  suggestions := by simp [ofFinding]

/-! ### One command -/

namespace Engine

/-- The built-in rules find nothing where there are no statements. -/
theorem findings_of_body {script : Script} (h : script.body = []) (e : Engine) (source : String) :
    e.findings source script = [] := by
  have hfound (r : Rule) (check : Context → Statement → List Finding) :
      e.found source script r check = [] := by
    rw [found, h]
    cases e.config.severityFor r.id r.severity <;> rfl
  rw [findings, hfound, hfound, List.append_nil]

theorem reported_of_blank {source : String} (h : Text.blank source.toList = true) (e : Engine) :
    e.reported source = [] := by
  obtain ⟨script, hparse, hbody⟩ := parse_blank h
  rw [reported, hparse]
  exact findings_of_body hbody e source

/-- What rules that only report find is found in their names, or in that of the parser. -/
theorem ruleId_of_mem_lint {e : Engine} (h : ∀ r ∈ e.rules.rules, r.OnlyReports) {source : String}
    {file : Option String} {result : LintResult} (hlint : (e.lint source file).value = .ok result)
    {f : Finding} (hf : f ∈ result.findings) : f.ruleId ∈ parseErrorId :: e.rules.ids := by
  cases hparse : Script.parse source with
  | error error =>
    rw [lint, hparse, Except.ok.injEq] at hlint
    subst hlint
    obtain rfl := List.mem_singleton.1 hf
    exact List.mem_cons_self
  | ok script =>
    rw [lint_of_onlyReports hparse h, Except.ok.injEq] at hlint
    subst hlint
    obtain ⟨r, hr, hf⟩ := List.mem_flatMap.1 hf
    rw [ruleId_of_mem_own (h r hr) hf]
    exact List.mem_cons_of_mem _ (List.mem_map_of_mem hr)

end Engine

theorem RuleTable.onlyReports_builtin : ∀ r ∈ RuleTable.builtin.rules, r.OnlyReports := by
  rw [rules_builtin]
  simp [UnknownCommand.onlyReports, ArgumentTypes.onlyReports]

/-- The diagnostics of a command are those of the findings, blank or not. -/
theorem lintCommand_eq_map (config : Option Config) (command : String) :
    lintCommand config command =
      ((Engine.forCommands config).reported command).map .ofFinding := by
  rw [lintCommand_eq]
  split
  · rename_i hblank
    rw [Engine.reported_of_blank hblank]
    rfl
  · rfl

/-! ### Many commands -/

section Many

variable (config : Option Config) (commands : List String)

/-- What is found in commands, under their numbers: of those in which anything is found, in order. -/
theorem lintCommands_eq_map :
    lintCommands config commands =
      ((List.finRange commands.length).filter fun i => lintCommand config commands[i] ≠ []).map
        fun i => (s!"command-{i.val}", lintCommand config commands[i]) := by
  have hmap : (commands.mapIdx fun i c => (s!"command-{i}", lintCommand config c)) =
      (List.finRange commands.length).map fun i =>
        (s!"command-{i.val}", lintCommand config commands[i]) :=
    List.ext_getElem (by simp) (by simp)
  rw [lintCommands, hmap, List.filter_map]
  refine congrArg (List.map _) (List.filter_congr fun i _ => ?_)
  rw [Bool.eq_iff_iff]
  simp

theorem mem_lintCommands {key : String} {ds : List Diagnostic} :
    (key, ds) ∈ lintCommands config commands ↔
      ∃ i : Nat, key = s!"command-{i}" ∧ commands[i]?.map (lintCommand config) = some ds ∧
        ds ≠ [] := by
  simp only [lintCommands, List.mem_filter, List.mem_mapIdx, Prod.mk.injEq, Option.map_eq_some_iff,
    List.getElem?_eq_some_iff]
  constructor
  · rintro ⟨⟨i, hi, rfl, rfl⟩, hds⟩
    exact ⟨i, rfl, ⟨_, ⟨hi, rfl⟩, rfl⟩, by simpa using hds⟩
  · rintro ⟨i, rfl, ⟨c, ⟨hi, rfl⟩, rfl⟩, hds⟩
    exact ⟨⟨i, hi, rfl, rfl⟩, by simpa using hds⟩

theorem nodup_keys_lintCommands : ((lintCommands config commands).map Prod.fst).Nodup := by
  have hinjective : Function.Injective
      (Prod.fst ∘ fun i : Fin commands.length =>
        (s!"command-{i.val}", lintCommand config commands[i])) := by
    intro i j h
    exact Fin.ext (Entries.numbered_injective "command-" h)
  rw [lintCommands_eq_map, List.map_map]
  exact ((List.nodup_finRange _).filter _).map hinjective

/-- Under a number is what is found in the command of that number. -/
theorem lookup_lintCommands (i : Nat) :
    (lintCommands config commands).lookup s!"command-{i}" =
      (commands[i]?.map (lintCommand config)).filter (· ≠ []) := by
  cases hfound : (commands[i]?.map (lintCommand config)).filter (· ≠ []) with
  | some ds =>
    obtain ⟨hds, hne⟩ := Option.filter_eq_some_iff.1 hfound
    refine Entries.lookup_of_mem (nodup_keys_lintCommands config commands) ?_
    exact (mem_lintCommands config commands).2 ⟨i, rfl, hds, by simpa using hne⟩
  | none =>
    rw [Entries.lookup_eq_none_iff]
    intro hmem
    obtain ⟨⟨key, ds⟩, hmem, hkey⟩ := List.mem_map.1 hmem
    obtain ⟨j, hj, hds, hne⟩ := (mem_lintCommands config commands).1 hmem
    obtain rfl : j = i := Entries.numbered_injective "command-" (hj.symm.trans hkey)
    rw [hds] at hfound
    simp [hne] at hfound

end Many

/-- **Linting a command is asking an engine, and linting commands is linting each.**

An engine with the built-in rules never breaks off, and a command has the diagnostics of its findings,
one by one and in order.  This is so for a blank command too, which has none.  No diagnostic is in the
name of a rule that broke off.  Of commands that are linted together, those with diagnostics are kept
in order, each under its number, with what is found in it by itself. -/
theorem lintCommand_agrees (config : Option Config) :
    (∀ command, ∃ result,
      ((RuleTable.builtin.engine config).value.lint command none).value = .ok result ∧
      List.Forall₂ Diagnostic.Shows (lintCommand config command) result.findings ∧
      ((∀ c ∈ command.toList, Text.isBlank c = true) → result.findings = []) ∧
      ∀ d ∈ lintCommand config command, d.ruleId ≠ internalErrorId) ∧
    ∀ commands,
      lintCommands config commands =
        ((List.finRange commands.length).filter fun i => lintCommand config commands[i] ≠ []).map
          (fun i => (s!"command-{i.val}", lintCommand config commands[i])) ∧
      ((lintCommands config commands).map Prod.fst).Nodup ∧
      ∀ i : Nat, (lintCommands config commands).lookup s!"command-{i}" =
        (commands[i]?.map (lintCommand config)).filter (· ≠ []) := by
  refine ⟨fun command => ?_, fun commands => ⟨lintCommands_eq_map config commands,
    nodup_keys_lintCommands config commands, lookup_lintCommands config commands⟩⟩
  have hlint : ((RuleTable.builtin.engine config).value.lint command none).value =
      .ok ⟨none, (Engine.forCommands config).reported command⟩ := by
    rw [RuleTable.engine_builtin]
    exact Engine.lint_builtin rfl command none
  refine ⟨_, hlint, ?_, fun hblank => ?_, fun d hd => ?_⟩
  · rw [lintCommand_eq_map, List.forall₂_map_left_iff, List.forall₂_same]
    exact fun f _ => Diagnostic.shows_ofFinding f
  · exact Engine.reported_of_blank (List.all_eq_true.2 hblank) _
  · rw [lintCommand_eq_map] at hd
    obtain ⟨f, hf, rfl⟩ := List.mem_map.1 hd
    rw [RuleTable.engine_builtin] at hlint
    have hid := Engine.ruleId_of_mem_lint RuleTable.onlyReports_builtin hlint hf
    have hinternal : internalErrorId ∉ parseErrorId :: RuleTable.builtin.ids := by decide
    rw [Engine.rules_forCommands] at hid
    exact ne_of_mem_of_not_mem hid hinternal

end GeoLint
