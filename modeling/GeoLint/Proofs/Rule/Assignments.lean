import GeoLint.Proofs.Gate
import GeoLint.Proofs.Rule.Mismatches
import GeoLint.Proofs.Syntax.Nesting

/-!
# What is reported about assignments

A statement `NAME = expression` is an assignment unless the expression is a command, as in
`P = Point(x)`.  In the tree it is a statement named after its target, and nothing tells it from a
call of a command of that name with one argument (`IsStatement.of_assigns`).  So assignments are not
free of reports:

* the rule on unknown commands passes over a single argument that is no command, but the value of an
  assignment can be a command in parentheses (`UnknownCommand.check_assigned`);
* the rule on arguments passes over nothing, so that a target which is the name of a command is held
  against the overloads of that command (`ArgumentTypes.check_assigned`).

`assignment_reported_iff` says that nothing else is reported about them, and `assignments_reported`
gives an assignment of each kind.
-/

namespace GeoLint

namespace Grammar

open Parsing (nameOf)

/-- The tokens assign the value that the tokens `value` write to the name `target`: an equals sign
stands between them, and the value is not a command. -/
structure Assigns (us : List Token) (target : Token) (value : List Token) : Prop where
  /-- Target, sign and value are all there is. -/
  sign : ∃ q, us = target :: q :: value ∧ q.kind = .equals
  /-- What follows the sign does not start as a command does. -/
  no_call : ¬ StartsCall value

/-- A command starts with its name, so that a command in parentheses does not start as one. -/
theorem not_startsCall_cons {t : Token} (h : t.kind ≠ .identifier) (ts : List Token) :
    ¬ StartsCall (t :: ts) := by
  rintro ⟨f, p, rest, heq, hf, -⟩
  obtain ⟨rfl, -⟩ := List.cons.inj heq
  exact h hf

/-- The slice of an only statement is all that does not separate statements. -/
theorem Slices.eq_singleton {ts : List Token} {uss : List (List Token)} {s : Statement}
    (h : Slices ts uss [s]) (hflatten : uss.flatten = ts.filter isContent) :
    uss = [ts.filter isContent] := by
  obtain ⟨us, rfl⟩ := List.length_eq_one_iff.1 h.length_eq
  rw [← hflatten, List.flatten_singleton]

/-- **An assignment is a statement named after its target**, with the value as its only
argument. -/
theorem IsStatement.of_assigns {us value : List Token} {target : Token} {s : Statement}
    (h : IsStatement us s) (hassigns : Assigns us target value) :
    ∃ v, Derives value (.expression v) ∧ s.command = nameOf target ∧ s.arguments = [v] := by
  obtain ⟨q, rfl, hq⟩ := hassigns.sign
  generalize hus : target :: q :: value = us at h
  cases h with
  | call hf hp =>
    obtain ⟨-, rfl, -⟩ : _ ∧ _ ∧ _ := by simpa using hus
    exact absurd (hq.symm.trans hp) (by decide)
  | assignedCall htarget hq' hf hp =>
    obtain ⟨-, -, rfl⟩ : _ ∧ _ ∧ _ := by simpa using hus
    exact absurd ⟨_, _, _, rfl, hf, hp⟩ hassigns.no_call
  | assigned htarget hq' hts =>
    obtain ⟨rfl, -, rfl⟩ : _ ∧ _ ∧ _ := by simpa using hus
    exact ⟨_, hts, rfl, rfl⟩

/-- A script of one statement is one slice.  It is an assignment if an equals sign comes second and
no name comes third. -/
theorem slices_assigned {source : String} {script : Script} {s : Statement}
    (hparse : Script.parse source = .ok script) (hbody : script.body = [s])
    {target q o : Token} {rest : List Token}
    (htokens : (Token.tokenize source).filter isContent = target :: q :: o :: rest)
    (hq : q.kind = .equals) (ho : o.kind ≠ .identifier) :
    Slices (Token.tokenize source) [target :: q :: o :: rest] script.body ∧
      Assigns (target :: q :: o :: rest) target (o :: rest) := by
  obtain ⟨uss, hslices, hflatten⟩ := (isScript_of_parse hparse).slices
  have hone := Slices.eq_singleton (hbody ▸ hslices) hflatten
  rw [htokens] at hone
  exact ⟨hone ▸ hslices, ⟨q, rfl, hq⟩, not_startsCall_cons ho rest⟩

end Grammar

/-! ### One statement -/

theorem UnknownCommand.check_eq_nil_iff (ctx : Context) (s : Statement) :
    check ctx s = [] ↔ ¬ s.IsUnknown ctx.catalogue := by
  rw [Statement.IsUnknown, ← Statement.isPlainAssignment_iff, check]
  cases s.isPlainAssignment <;> cases ctx.catalogue.knows s.command.text <;> simp

theorem UnknownCommand.check_of_isUnknown {ctx : Context} {s : Statement}
    (h : s.IsUnknown ctx.catalogue) : check ctx s =
      [ctx.report (.name s.command) s!"Unknown command \"{s.command.text}\""
        (EditDistance.similar s.command.text ctx.catalogue.names EditDistance.maxDistance)] := by
  obtain ⟨hplain, hknows⟩ := h
  rw [← Statement.isPlainAssignment_iff, Bool.not_eq_true] at hplain
  rw [check, hplain, hknows]
  rfl

theorem ArgumentTypes.check_of_unknown {ctx : Context} {s : Statement}
    (h : ctx.catalogue.overloads? s.command.text = none) : check ctx s = [] := by
  rw [check, Catalogue.bestMatch?, h]

/-- An assignment is reported as an unknown command if its value is a command, which then stands in
parentheses, and its target is not the name of one. -/
theorem UnknownCommand.check_assigned (ctx : Context) {s : Statement} {v : Expr}
    (hv : s.arguments = [v]) : check ctx s ≠ [] ↔
      ctx.catalogue.knows s.command.text = false ∧ ∃ f as span, v = .call f as span := by
  rw [Ne, check_eq_nil_iff, not_not, Statement.IsUnknown, hv]
  simp [and_comm]

/-- An assignment is held against an overload if its target is the name of a command, and reported
if that overload does not accept its value. -/
theorem ArgumentTypes.check_assigned {records : List Record} {ctx : Context}
    (h : ctx.catalogue = .ofRecords records) {s : Statement} {v : Expr} (hv : s.arguments = [v]) :
    check ctx s ≠ [] ↔ ∃ os o, ctx.catalogue.overloads? s.command.text = some os ∧
      Overload.Chosen os 1 o ∧ ¬ o.Accepts [v] := by
  have hnil (os : List Overload) (o : Overload)
      (hos : ctx.catalogue.overloads? s.command.text = some os) (ho : Overload.Chosen os 1 o) :
      check ctx s = [] ↔ o.Accepts [v] := by
    rw [check_eq_nil_iff hos (by rwa [hv]), hv]
  constructor
  · intro hcheck
    cases hos : ctx.catalogue.overloads? s.command.text with
    | none => exact absurd (check_of_unknown hos) hcheck
    | some os =>
      obtain ⟨o, ho⟩ := Overload.exists_chosen (Catalogue.ne_nil_of_overloads? (h ▸ hos)) 1
      exact ⟨os, o, rfl, ho, mt (hnil os o hos ho).2 hcheck⟩
  · rintro ⟨os, o, hos, ho, hrejects⟩
    exact mt (hnil os o hos ho).1 hrejects

/-! ### Scripts -/

open Grammar
open Token (tokenize)

namespace Engine

variable (e : Engine) (source : String) (script : Script)

/-- What a rule finds in one statement of a script. -/
def foundIn (r : Rule) (check : Context → Statement → List Finding) (s : Statement) :
    List Finding :=
  match e.config.severityFor r.id r.severity with
  | none => []
  | some severity => check (e.context source script r severity) s

theorem found_eq_flatMap (r : Rule) (check : Context → Statement → List Finding) :
    e.found source script r check = script.body.flatMap (e.foundIn source script r check) := by
  unfold found foundIn
  cases e.config.severityFor r.id r.severity with
  | none => exact (List.flatMap_eq_nil_iff.2 fun _ _ => rfl).symm
  | some severity => rfl

/-- If a check finds something exactly where `P` holds, then so does the rule, unless it is off. -/
theorem foundIn_ne_nil_iff {r : Rule} {check : Context → Statement → List Finding} {s : Statement}
    {P : Prop} (h : ∀ severity, check (e.context source script r severity) s ≠ [] ↔ P) :
    e.foundIn source script r check s ≠ [] ↔
      e.config.severityFor r.id r.severity ≠ none ∧ P := by
  unfold foundIn
  cases e.config.severityFor r.id r.severity with
  | none => simp
  | some severity => simpa using h severity

variable {e source script}

/-- The built-in rules report what they find in the statements, one after the other. -/
theorem lint_statements (he : e.rules = .builtin) (h : Script.parse source = .ok script)
    (file : Option String) : (e.lint source file).value =
      .ok ⟨file, script.body.flatMap (e.foundIn source script UnknownCommand.rule
        UnknownCommand.check) ++ script.body.flatMap (e.foundIn source script ArgumentTypes.rule
        ArgumentTypes.check)⟩ := by
  rw [lint_builtin he, reported, h]
  simp only [findings, found_eq_flatMap]

theorem foundIn_assigned {records : List Record} (he : e.catalogue = .ofRecords records)
    {us value : List Token} {target : Token} {s : Statement} (hs : IsStatement us s)
    (hassigns : Assigns us target value) :
    ∃ v, Derives value (.expression v) ∧ s.arguments = [v] ∧
      (e.foundIn source script UnknownCommand.rule UnknownCommand.check s ≠ [] ↔
        e.config.severityFor "no-unknown-command" .error ≠ none ∧
          e.catalogue.knows target.text = false ∧ ∃ f as span, v = .call f as span) ∧
      (e.foundIn source script ArgumentTypes.rule ArgumentTypes.check s ≠ [] ↔
        e.config.severityFor "correct-arg-types" .warning ≠ none ∧
          ∃ os o, e.catalogue.overloads? target.text = some os ∧ Overload.Chosen os 1 o ∧
            ¬ o.Accepts [v]) := by
  obtain ⟨v, hv, hcommand, harguments⟩ := hs.of_assigns hassigns
  have hname : target.text = s.command.text := by
    rw [hcommand]
    rfl
  rw [hname]
  exact ⟨v, hv, harguments,
    e.foundIn_ne_nil_iff source script fun _ => UnknownCommand.check_assigned _ harguments,
    e.foundIn_ne_nil_iff source script fun _ => ArgumentTypes.check_assigned he harguments⟩

end Engine

/-- **Which assignments are reported.**  Linting a script that parses gives what each rule finds in
its statements, one after the other.  Every statement is written by a slice of the tokens.  About
one that assigns a value to a name

* the rule on unknown commands reports something exactly if it is not off, the name is not that of a
  command, and the value is a command in parentheses;
* the rule on arguments reports something exactly if it is not off, the name is that of a command,
  and the overload of one argument, or else the first, does not accept the value.

So an assignment to any other name, of any other value, is never reported. -/
theorem assignment_reported_iff {source : String} {script : Script}
    (h : Script.parse source = .ok script) (config : Config) (file : Option String) :
    let e : Engine := ⟨.builtin, config, .bundled⟩
    let unknown := e.foundIn source script UnknownCommand.rule UnknownCommand.check
    let mistaken := e.foundIn source script ArgumentTypes.rule ArgumentTypes.check
    (e.lint source file).value =
        .ok ⟨file, script.body.flatMap unknown ++ script.body.flatMap mistaken⟩ ∧
      ∃ uss, Slices (tokenize source) uss script.body ∧
        uss.flatten = (tokenize source).filter isContent ∧
        List.Forall₂ (fun us s => ∀ target value, Assigns us target value →
          ∃ v, Derives value (.expression v) ∧ s.arguments = [v] ∧
            (unknown s ≠ [] ↔ config.severityFor "no-unknown-command" .error ≠ none ∧
              Catalogue.bundled.knows target.text = false ∧ ∃ f as span, v = .call f as span) ∧
            (mistaken s ≠ [] ↔ config.severityFor "correct-arg-types" .warning ≠ none ∧
              ∃ os o, Catalogue.bundled.overloads? target.text = some os ∧
                Overload.Chosen os 1 o ∧ ¬ o.Accepts [v])) uss script.body := by
  have hrecords : Catalogue.bundled = .ofRecords Catalogue.bundledRecords := by
    rw [Catalogue.bundled]
  -- The catalogue is large, and all that counts is that it comes from records.
  generalize Catalogue.bundled = catalogue at hrecords ⊢
  intro e unknown mistaken
  obtain ⟨uss, hslices, hflatten⟩ := (isScript_of_parse h).slices
  refine ⟨Engine.lint_statements rfl h file, uss, hslices, hflatten, hslices.imp ?_⟩
  rintro us s ⟨-, hs, -⟩ target value hassigns
  exact Engine.foundIn_assigned hrecords hs hassigns

/-- A list in parentheses, with a command in it, is assigned to what is not the name of a command.
No configuration makes a rule report it. -/
theorem assignment_reported_iff_list_in_parentheses :
    ∃ source script us target value, source = "A = (\x7bPoint(a), b\x7d)" ∧
      Script.parse source = .ok script ∧ Slices (tokenize source) [us] script.body ∧
      Assigns us target value ∧
      ∀ config, ((Engine.mk .builtin config .bundled).lint source none).value =
        .ok ⟨none, []⟩ := by
  let s : Statement := ⟨⟨"A", .point ⟨1, 1⟩⟩, [.list [.call ⟨"Point", .point ⟨1, 7⟩⟩
    [.name ⟨"a", .point ⟨1, 13⟩⟩] ⟨⟨1, 7⟩, ⟨1, 14⟩⟩, .name ⟨"b", .point ⟨1, 17⟩⟩]
    ⟨⟨1, 6⟩, ⟨1, 18⟩⟩], ⟨⟨1, 1⟩, ⟨1, 19⟩⟩⟩
  obtain ⟨script, hparse, hbody⟩ : ∃ script,
      Script.parse "A = (\x7bPoint(a), b\x7d)" = .ok script ∧ script.body = [s] := ⟨_, rfl, rfl⟩
  obtain ⟨target, q, o, rest, htokens, htarget, hq, ho⟩ : ∃ target q o rest,
      (tokenize "A = (\x7bPoint(a), b\x7d)").filter isContent = target :: q :: o :: rest ∧
        target.text = "A" ∧ q.kind = .equals ∧ o.kind ≠ .identifier :=
    ⟨_, _, _, _, rfl, rfl, rfl, by decide⟩
  obtain ⟨hslices, hassigns⟩ := slices_assigned hparse hbody htokens hq ho
  have hnone : Catalogue.bundled.overloads? "A" = none :=
    Catalogue.overloads?_bundled [] (by decide +kernel)
  have hreported (config : Config) := assignment_reported_iff hparse config none
  generalize Catalogue.bundled = catalogue at hnone hreported ⊢
  refine ⟨_, script, _, target, _, rfl, hparse, hslices, hassigns, fun config => ?_⟩
  obtain ⟨hlint, uss, hslices, hflatten, hstatements⟩ := hreported config
  obtain rfl : uss = [target :: q :: o :: rest] :=
    htokens ▸ Slices.eq_singleton (hbody ▸ hslices) hflatten
  rw [hbody, List.forall₂_cons] at hstatements
  obtain ⟨v, -, hv, hunknown, hmistaken⟩ := hstatements.1 target _ hassigns
  obtain ⟨rfl, -⟩ := List.cons.inj hv
  rw [htarget, hnone] at hmistaken
  rw [hlint, hbody]
  simp only [List.flatMap_singleton]
  rw [not_ne_iff.1 (mt hunknown.1 (by simp)), not_ne_iff.1 (mt hmistaken.1 (by simp))]
  rfl

/-- **Assignments are reported**: as an unknown command if a command in parentheses is assigned, and
as a call if the target has the name of a command. -/
theorem assignments_reported :
    (∃ script us target value f, Script.parse "x = (F(a))" = .ok script ∧
      Slices (tokenize "x = (F(a))") [us] script.body ∧ Assigns us target value ∧
      ((Engine.mk .builtin .standard .bundled).lint "x = (F(a))" none).value = .ok ⟨none, [f]⟩ ∧
      f.message = "Unknown command \"x\"") ∧
    ∃ script us target value f, Script.parse "Delete = (a, b)" = .ok script ∧
      Slices (tokenize "Delete = (a, b)") [us] script.body ∧ Assigns us target value ∧
      ((Engine.mk .builtin .standard .bundled).lint "Delete = (a, b)" none).value =
        .ok ⟨none, [f]⟩ ∧
      f.message =
        "Argument 1 of \"Delete\" has the wrong type: expected Object, got Unknown" := by
  have hnone : Catalogue.bundled.overloads? "x" = none :=
    Catalogue.overloads?_bundled [] (by decide +kernel)
  let slot : Parameter := ⟨"Object", false, none⟩
  let object : Overload := ⟨"Delete", [slot],
    "Deletes an object and all its dependent objects.", "Delete( <Object> )",
    [⟨"Delete A", "Delete(A)"⟩], ""⟩
  have hsome : Catalogue.bundled.overloads? "Delete" = some [object] :=
    Catalogue.overloads?_bundled [object] (by decide +kernel)
  generalize Catalogue.bundled = catalogue at hnone hsome ⊢
  let e : Engine := ⟨.builtin, .standard, catalogue⟩
  constructor
  · let s : Statement := ⟨⟨"x", .point ⟨1, 1⟩⟩, [.call ⟨"F", .point ⟨1, 6⟩⟩
      [.name ⟨"a", .point ⟨1, 8⟩⟩] ⟨⟨1, 6⟩, ⟨1, 9⟩⟩], ⟨⟨1, 1⟩, ⟨1, 10⟩⟩⟩
    obtain ⟨script, hparse, hbody⟩ : ∃ script,
        Script.parse "x = (F(a))" = .ok script ∧ script.body = [s] := ⟨_, rfl, rfl⟩
    obtain ⟨target, q, o, rest, htokens, hq, ho⟩ : ∃ target q o rest,
        (tokenize "x = (F(a))").filter isContent = target :: q :: o :: rest ∧
          q.kind = .equals ∧ o.kind ≠ .identifier := ⟨_, _, _, _, rfl, rfl, by decide⟩
    obtain ⟨hslices, hassigns⟩ := slices_assigned hparse hbody htokens hq ho
    have hunknown : s.IsUnknown catalogue :=
      ⟨by simp [s], by rw [Catalogue.knows, hnone]; rfl⟩
    obtain ⟨f, hf, hmessage⟩ : ∃ f, UnknownCommand.check
        (e.context "x = (F(a))" script UnknownCommand.rule .error) s = [f] ∧
        f.message = "Unknown command \"x\"" :=
      ⟨_, UnknownCommand.check_of_isUnknown hunknown, rfl⟩
    refine ⟨script, _, _, _, f, hparse, hslices, hassigns, ?_, hmessage⟩
    rw [Engine.lint_standard_singleton catalogue hparse hbody none, hf,
      ArgumentTypes.check_of_unknown hnone, List.append_nil]
  · let pair : Expr := .tuple [.name ⟨"a", .point ⟨1, 11⟩⟩, .name ⟨"b", .point ⟨1, 14⟩⟩]
      ⟨⟨1, 10⟩, ⟨1, 15⟩⟩
    let s : Statement := ⟨⟨"Delete", .point ⟨1, 1⟩⟩, [pair], ⟨⟨1, 1⟩, ⟨1, 15⟩⟩⟩
    obtain ⟨script, hparse, hbody⟩ : ∃ script,
        Script.parse "Delete = (a, b)" = .ok script ∧ script.body = [s] := ⟨_, rfl, rfl⟩
    obtain ⟨target, q, o, rest, htokens, hq, ho⟩ : ∃ target q o rest,
        (tokenize "Delete = (a, b)").filter isContent = target :: q :: o :: rest ∧
          q.kind = .equals ∧ o.kind ≠ .identifier := ⟨_, _, _, _, rfl, rfl, by decide⟩
    obtain ⟨hslices, hassigns⟩ := slices_assigned hparse hbody htokens hq ho
    let ctx := e.context "Delete = (a, b)" script ArgumentTypes.rule .warning
    have hchosen : Overload.Chosen [object] s.arguments.length object :=
      .exact (List.nil_append _).symm (by simp) rfl
    have hfits : ArgumentTypes.fits pair slot = false := by decide
    have hmistaken : ArgumentTypes.check ctx s = [ArgumentTypes.mistype ctx s 0 pair slot] := by
      rw [ArgumentTypes.check_of_chosen hsome hchosen, ArgumentTypes.checkCount_of_total rfl]
      simp only [s, object, ArgumentTypes.checkTypes, ArgumentTypes.checkArgument, hfits]
      rfl
    refine ⟨script, _, _, _, ArgumentTypes.mistype ctx s 0 pair slot, hparse, hslices, hassigns,
      ?_, rfl⟩
    rw [Engine.lint_standard_singleton catalogue hparse hbody none, hmistaken]
    rfl

end GeoLint
