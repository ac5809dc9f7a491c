import GeoLint.Engine
import GeoLint.Proofs.Rule.Table

/-!
# An engine over its history

An engine is asked one thing after the other: to take rules, to take a configuration, to show its
rules, to lint a script (`Request`).  Each request gives a reply and the engine for the next one
(`Engine.step`), and some requests change nothing.

What is left of a history is little: the rules that stand after all that were registered, and the
last configuration that was accepted (`Engine.after_eq`).  So each script is linted as a new engine
with just these would lint it (`lint_after_history`), whatever else was asked before.
-/

namespace GeoLint

/-- What an engine is asked. -/
inductive Request where
  /-- To take a rule. -/
  | register (r : Rule)
  /-- To take rules. -/
  | registerAll (rs : List Rule)
  /-- To take the configuration that data of any shape hold. -/
  | configure (v : Value)
  /-- To show its rules. -/
  | rules
  /-- To lint a script. -/
  | lint (source : String) (file : Option String)

/-- What an engine replies. -/
inductive Reply where
  /-- It has done so. -/
  | done
  /-- The data are no configuration. -/
  | refused (issues : List Issue)
  /-- These are the rules. -/
  | rules (rs : List Rule)
  /-- This came out of linting. -/
  | linted (outcome : Logged (Except Failure LintResult))

namespace Request

/-- The rules that come with a request. -/
def registers : Request → List Rule
  | register r => [r]
  | registerAll rs => rs
  | _ => []

/-- The configuration that comes with a request, if it is accepted. -/
def config? : Request → Option Config
  | configure v => (Config.ofValue v).toOption
  | _ => none

end Request

/-- All rules registered in a history, in order. -/
def registered (history : List Request) : List Rule :=
  history.flatMap Request.registers

/-- The last configuration that a history set, or the one at its start. -/
def lastConfig (start : Config) (history : List Request) : Config :=
  (history.filterMap Request.config?).getLast?.getD start

namespace Engine

/-- The engine after a request, and its reply. -/
def step (e : Engine) : Request → Engine × Reply
  | .register r => ((e.register r).value, .done)
  | .registerAll rs => ((e.registerAll rs).value, .done)
  | .configure v =>
    match Config.ofValue v with
    | .ok config => (e.setConfig config, .done)
    | .error issues => (e, .refused issues)
  | .rules => (e, .rules e.rules.rules)
  | .lint source file => (e, .linted (e.lint source file))

/-- The engine after a history. -/
def after (e : Engine) (history : List Request) : Engine :=
  history.foldl (fun e q => (e.step q).1) e

/-- The replies to the requests of a history. -/
def replies (e : Engine) : List Request → List Reply
  | [] => []
  | q :: history => (e.step q).2 :: (e.step q).1.replies history

/-- The engine shows what its history made of it. -/
structure Reflects (e : Engine) (config : Config) (catalogue : Catalogue)
    (history : List Request) : Prop where
  /-- No two rules have the same name. -/
  nodup_ids : e.rules.ids.Nodup
  /-- The names stand in the order in which they were first registered. -/
  ids : e.rules.ids = ((registered history).map Rule.id).eraseDups
  /-- Under each name is the last rule registered under it. -/
  find? : ∀ id, e.rules.find? id = (registered history).findRev? fun r => r.id = id
  /-- There are as many rules as names. -/
  size : e.rules.size = ((registered history).map Rule.id).eraseDups.length
  /-- The configuration is the last one accepted. -/
  config : e.config = lastConfig config history
  /-- The catalogue is the one it was made with. -/
  catalogue : e.catalogue = catalogue

/-- A new engine with what a history leaves: the rules that stand and the last configuration. -/
def renewed (config : Config) (catalogue : Catalogue) (history : List Request) : Engine :=
  ((new (lastConfig config history) catalogue).registerAll
    (RuleTable.standing (registered history))).value

/-! ### One request -/

theorem registerAll_value (e : Engine) (rs : List Rule) :
    (e.registerAll rs).value = { e with rules := e.rules.insertAll rs } := by
  induction rs generalizing e with
  | nil => rfl
  | cons r rs ih =>
    rw [registerAll]
    exact ih _

/-- A request adds the rules and the configuration that come with it, and no more. -/
theorem step_fst (e : Engine) (q : Request) :
    (e.step q).1 = ⟨e.rules.insertAll q.registers, q.config?.getD e.config, e.catalogue⟩ := by
  cases q with
  | register r => rfl
  | registerAll rs => exact registerAll_value e rs
  | configure v =>
    cases h : Config.ofValue v with
    | ok config | error issues =>
      rw [step, Request.config?, h]
      rfl
  | rules => rfl
  | lint source file => rfl

/-! ### A history -/

theorem lastConfig_cons (start : Config) (q : Request) (history : List Request) :
    lastConfig start (q :: history) = lastConfig (q.config?.getD start) history := by
  cases h : q.config? with
  | none => simp [lastConfig, h]
  | some config => simp [lastConfig, h, List.getLast?_cons]

/-- A history comes down to the rules registered in it and the last configuration accepted. -/
theorem after_eq (e : Engine) (history : List Request) :
    e.after history =
      ⟨e.rules.insertAll (registered history), lastConfig e.config history, e.catalogue⟩ := by
  induction history generalizing e with
  | nil => rfl
  | cons q history ih =>
    have hrules : e.rules.insertAll (registered (q :: history)) =
        (e.rules.insertAll q.registers).insertAll (registered history) := by
      simp [registered, RuleTable.insertAll]
    have hafter : e.after (q :: history) = (e.step q).1.after history := rfl
    rw [hafter, ih, step_fst, lastConfig_cons, hrules]

/-- Each request is replied to by the engine after those before it. -/
theorem getElem?_replies (e : Engine) (history : List Request) (i : Nat) :
    (e.replies history)[i]? =
      history[i]?.map fun q => ((e.after (history.take i)).step q).2 := by
  induction history generalizing e i with
  | nil => rfl
  | cons q history ih =>
    cases i with
    | zero => rfl
    | succ i => simpa [replies, after] using ih (e.step q).1 i

section New

variable (config : Config) (catalogue : Catalogue) (history : List Request)

theorem reflects_after :
    ((new config catalogue).after history).Reflects config catalogue history := by
  rw [after_eq]
  have hids := RuleTable.ids_insertAll (registered history)
  exact {
    nodup_ids := RuleTable.nodup_ids_insertAll _
    ids := hids
    find? := RuleTable.find?_insertAll _
    size := by
      rw [← hids, RuleTable.ids, List.length_map]
      rfl
    config := rfl
    catalogue := rfl }

theorem renewed_eq : renewed config catalogue history = (new config catalogue).after history := by
  rw [renewed, registerAll_value, after_eq]
  exact congrArg (Engine.mk · _ _) (RuleTable.insertAll_standing _)

end New

end Engine

/-- **An engine lints by the rules that stand and the last configuration, and by nothing else.**

After any history the names of the rules are distinct and in the order in which they were first
registered, each name has the last rule registered under it, and the configuration is the last one
that was accepted.  Linting, also if a rule breaks off, showing the rules and a configuration that
is refused leave the engine as it is.  So a script that is linted in the course of a history gives
what it gives in a new engine, with the last configuration, to which the rules that stand are
registered in their order. -/
theorem lint_after_history (config : Config) (catalogue : Catalogue) (history : List Request) :
    ((Engine.new config catalogue).after history).Reflects config catalogue history ∧
    (∀ e : Engine, (∀ source file, (e.step (.lint source file)).1 = e) ∧
      (e.step .rules).1 = e ∧
      ∀ v issues, Config.ofValue v = .error issues → (e.step (.configure v)).1 = e) ∧
    (∀ i : Nat, history[i]? = some .rules →
      ((Engine.new config catalogue).replies history)[i]? =
        some (.rules (RuleTable.standing (registered (history.take i))))) ∧
    ∀ (i : Nat) (source : String) (file : Option String),
      history[i]? = some (.lint source file) →
      ((Engine.new config catalogue).replies history)[i]? =
        some (.linted ((Engine.renewed config catalogue (history.take i)).lint source file)) := by
  refine ⟨Engine.reflects_after config catalogue history, fun e => ⟨fun _ _ => rfl, rfl, ?_⟩,
    ?_, ?_⟩
  · intro v issues h
    rw [Engine.step, h]
  · intro i h
    rw [Engine.getElem?_replies, h, Option.map_some, Engine.after_eq, ← RuleTable.rules_insertAll]
    rfl
  · intro i source file h
    rw [Engine.getElem?_replies, h, Option.map_some, Engine.renewed_eq]
    rfl

/-- A name is registered a second time, by a rule that breaks off, and a configuration is refused
before a script is linted. -/
theorem lint_after_history_replaced :
    ∃ (first other second : Rule) (history : List Request),
      first.id = "a" ∧ other.id = "b" ∧ second.id = "a" ∧
      (∀ context, second.run context = .error ⟨"no more"⟩) ∧
      history = [.registerAll [first, other], .register second, .configure .null,
        .lint "F(1)" none] ∧
      history[3]? = some (.lint "F(1)" none) ∧
      ((Engine.new .empty .empty).after history).rules.ids = ["a", "b"] ∧
      ((Engine.new .empty .empty).after history).rules.find? "a" = some second ∧
      RuleTable.standing (registered history) = [second, other] ∧
      ((Engine.new .empty .empty).replies history)[3]? =
        some (.linted ((Engine.renewed .empty .empty (history.take 3)).lint "F(1)" none)) := by
  have hmain := lint_after_history .empty .empty
  refine ⟨⟨"a", .info, "", false, "", fun _ => .ok ([], {})⟩,
    ⟨"b", .info, "", false, "", fun _ => .ok ([], {})⟩,
    ⟨"a", .info, "", false, "", fun _ => .error ⟨"no more"⟩⟩, _, rfl, rfl, rfl, fun _ => rfl,
    rfl, rfl, ?_, ?_, rfl, ?_⟩
  · rw [(hmain _).1.ids]
    decide
  · rw [(hmain _).1.find?]
    rfl
  · exact (hmain _).2.2.2 3 "F(1)" none rfl

end GeoLint
