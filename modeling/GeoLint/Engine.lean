import GeoLint.Catalogue.Bundled
import GeoLint.Config
import GeoLint.Rule.ArgumentTypes
import GeoLint.Rule.UnknownCommand
import GeoLint.Syntax.Parser

/-!
# Linting scripts

An `Engine` has rules, a configuration and a catalogue.  It parses a script once and runs every
rule that is not off; a script that does not parse gives a single finding.  What it notes on the
way is a list of `Event`s.

`lintCommand` is the entry point for single commands: it never fails, because a rule that breaks
off is itself reported as an error.
-/

namespace GeoLint

/-- How important an event is. -/
inductive Importance where
  /-- Of interest when hunting a fault. -/
  | debug
  /-- For information. -/
  | info
  /-- Something is wrong but work goes on. -/
  | warning
  /-- Something failed. -/
  | error
deriving DecidableEq, Repr

/-- What happened during the work. -/
inductive Event where
  /-- A rule was registered. -/
  | registered (rule : String)
  /-- A rule was passed over. -/
  | ruleOff (rule : String)
  /-- A script did not parse. -/
  | parseFailed (e : SyntaxError)
  /-- A script was linted. -/
  | linted (statements errors warnings : Nat)
  /-- A rule broke off while this command was linted. -/
  | lintFailed (command : String)
deriving DecidableEq, Repr

namespace Event

/-- How important an event is. -/
def importance : Event → Importance
  | .registered _ | .ruleOff _ | .linted .. => .debug
  | .parseFailed _ => .info
  | .lintFailed _ => .error

/-- The event in words. -/
def message : Event → String
  | .registered rule => s!"Registered rule {rule}"
  | .ruleOff rule => s!"Rule {rule} is off"
  | .parseFailed e => s!"Parse failed: {e.message}"
  | .linted statements errors warnings =>
    s!"Linted {statements} statement(s): {errors} error(s), {warnings} warning(s)"
  | .lintFailed command => s!"Linting failed for {Text.quoted command}"

end Event

/-- All that was found in one script. -/
structure LintResult where
  /-- The name of the script's file, if it has one. -/
  file : Option String
  /-- The findings, rule by rule. -/
  findings : List Finding

/-- The number of findings of a severity. -/
def LintResult.count (r : LintResult) (s : Severity) : Nat :=
  r.findings.countP fun f => f.severity = s

/-- Something that linting gives, and the events on the way to it. -/
structure Logged (α : Type) where
  /-- The events in order. -/
  events : List Event
  /-- What was given. -/
  value : α

/-- The name of the rule under which a script that does not parse is reported. -/
def parseErrorId : String := "parse-error"

/-- The finding about a script that does not parse. -/
def SyntaxError.toFinding (e : SyntaxError) : Finding where
  ruleId := parseErrorId
  message := e.message
  severity := .error
  span := .point e.position
  node := none
  suggestions := []

/-- Rules, a configuration and a catalogue. -/
structure Engine where
  /-- The registered rules. -/
  rules : RuleTable
  /-- How they are set. -/
  config : Config
  /-- The known commands. -/
  catalogue : Catalogue

namespace Engine

/-- An engine without rules. -/
def new (config : Config) (catalogue : Catalogue) : Engine :=
  ⟨.empty, config, catalogue⟩

/-- The engine with one more rule. -/
def register (e : Engine) (r : Rule) : Logged Engine :=
  ⟨[.registered r.id], { e with rules := e.rules.insert r }⟩

/-- The engine with more rules. -/
def registerAll (e : Engine) : List Rule → Logged Engine
  | [] => ⟨[], e⟩
  | r :: rs =>
    let first := e.register r
    let rest := first.value.registerAll rs
    ⟨first.events ++ rest.events, rest.value⟩

/-- The engine with another configuration. -/
def setConfig (e : Engine) (config : Config) : Engine :=
  { e with config := config }

/-- What a rule knows about a script when it reports with a severity. -/
def context (e : Engine) (source : String) (script : Script) (r : Rule) (severity : Severity) :
    Context where
  ruleId := r.id
  severity := severity
  options := e.config.optionsFor r.id
  script := script
  source := source
  catalogue := e.catalogue

/-- The findings of rules in a script, one rule after the other.  A rule that breaks off ends the
work. -/
def runRules (e : Engine) (source : String) (script : Script) :
    List Rule → Logged (Except Failure (List Finding))
  | [] => ⟨[], .ok []⟩
  | r :: rs =>
    match e.config.severityFor r.id r.severity with
    | none =>
      let rest := runRules e source script rs
      ⟨.ruleOff r.id :: rest.events, rest.value⟩
    | some severity =>
      match r.run (e.context source script r severity) with
      | .error failure => ⟨[], .error failure⟩
      | .ok found =>
        let rest := runRules e source script rs
        ⟨rest.events, rest.value.map (found ++ ·)⟩

/-- Lint a script. -/
def lint (e : Engine) (source : String) (file : Option String) :
    Logged (Except Failure LintResult) :=
  match Script.parse source with
  | .error error => ⟨[.parseFailed error], .ok ⟨file, [error.toFinding]⟩⟩
  | .ok script =>
    let run := e.runRules source script e.rules.rules
    match run.value with
    | .error failure => ⟨run.events, .error failure⟩
    | .ok findings =>
      let result : LintResult := ⟨file, findings⟩
      ⟨run.events ++
          [.linted script.body.length (result.count .error) (result.count .warning)],
        .ok result⟩

end Engine

/-- The built-in rules. -/
def RuleTable.builtin : RuleTable :=
  RuleTable.empty.insertAll [UnknownCommand.rule, ArgumentTypes.rule]

/-- An engine with all rules of a table, the bundled catalogue, and the standard configuration if
none is given. -/
def RuleTable.engine (t : RuleTable) (config : Option Config) : Logged Engine :=
  (Engine.new (config.getD .standard) .bundled).registerAll t.rules

/-! ### Single commands -/

/-- The name of the rule under which a rule that broke off is reported. -/
def internalErrorId : String := "internal-error"

/-- The diagnostic of a rule that broke off. -/
def Failure.toDiagnostic (f : Failure) : Diagnostic where
  line := 1
  column := 1
  message := s!"Linter failure: {f.message}"
  severity := .error
  ruleId := internalErrorId
  suggestions := none

namespace RuleTable

/-- Lint one command with the rules of a table.  A blank command has no findings. -/
def lintCommand (t : RuleTable) (config : Option Config) (command : String) :
    Logged (List Diagnostic) :=
  if Text.blank command.toList then ⟨[], []⟩
  else
    let engine := t.engine config
    let run := engine.value.lint command none
    match run.value with
    | .ok result => ⟨engine.events ++ run.events, result.findings.map .ofFinding⟩
    | .error failure =>
      ⟨engine.events ++ run.events ++ [.lintFailed command], [failure.toDiagnostic]⟩

end RuleTable

/-- Lint one command with the built-in rules. -/
def lintCommand (config : Option Config) (command : String) : List Diagnostic :=
  (RuleTable.builtin.lintCommand config command).value

/-- Lint commands one by one; those with findings are kept, under their numbers. -/
def lintCommands (config : Option Config) (commands : List String) :
    List (String × List Diagnostic) :=
  ((commands.mapIdx fun i c => (s!"command-{i}", lintCommand config c))).filter
    fun r => !r.2.isEmpty

/-- The command has an error and must not run. -/
def hasErrors (config : Option Config) (command : String) : Bool :=
  (lintCommand config command).any fun d => d.severity = .error

end GeoLint
