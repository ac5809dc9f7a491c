import GeoLint.CommandLine.Run
import GeoLint.Proofs.Entries
import GeoLint.Proofs.Rule.Mismatches

/-!
# What a lint shows and what it decides

A lint is asked to show only what is at least so severe.  That hides lines and nothing else: what is
counted and what decides the exit code are all messages of all scripts, and these do not depend on
what is shown.

`Messages` says what these messages are, script by script; `exists_messages` says that there always
are some, because the built-in rules never break off.  A lint goes through them one by one and keeps
a tally.  `Tally.Covers` says what a tally has counted and printed of which messages: one message more
keeps it (`Tally.Covers.add`), so a whole lint does (`Tally.covers_tally`).  `Reports` says what an
outcome prints.  The main statement, `severity_hides_only_lines`, compares two lints that differ in
nothing but the severity asked for.
-/

namespace GeoLint

namespace CommandLine

/-! ### Messages -/

/-- The messages of scripts, one script after the other, each with the name of its script. -/
inductive Messages (engine : Engine) : List Source → List (String × Diagnostic) → Prop
  /-- No scripts. -/
  | nil : Messages engine [] []
  /-- A script, and more. -/
  | cons {s : Source} {rest : List Source} {result : LintResult}
    {more : List (String × Diagnostic)} :
    (engine.lint s.text (some s.name)).value = .ok result → Messages engine rest more →
      Messages engine (s :: rest) (result.findings.map (fun f => (s.name, .ofFinding f)) ++ more)

/-- **Scripts always have messages**: with the built-in rules no lint breaks off. -/
theorem exists_messages {engine : Engine} (h : engine.rules = .builtin) (scripts : List Source) :
    ∃ messages, Messages engine scripts messages := by
  induction scripts with
  | nil => exact ⟨[], .nil⟩
  | cons s rest ih =>
    obtain ⟨more, hmore⟩ := ih
    exact ⟨_, .cons (Engine.lint_builtin h s.text (some s.name)) hmore⟩

/-- The messages that are shown. -/
def shown (minRank : Nat) (messages : List (String × Diagnostic)) : List (String × Diagnostic) :=
  messages.filter fun m => minRank ≤ m.2.severity.rank

/-! ### Counting -/

/-- The tally counts these messages, and shows those of them that rank high enough. -/
structure Tally.Covers (t : Tally) (minRank : Nat) (messages : List (String × Diagnostic)) : Prop
    where
  /-- Every message is counted. -/
  total : t.total = messages.length
  /-- So is every error, shown or not. -/
  errors : t.errors = messages.countP fun m => m.2.severity = .error
  /-- And so is what is shown. -/
  reported : t.reported = (shown minRank messages).length
  /-- Nothing else has lines. -/
  lines : t.lines = (shown minRank messages).flatMap fun m => diagnosticLines m.1 m.2

namespace Tally

variable {minRank : Nat} {t : Tally} {messages : List (String × Diagnostic)}

theorem covers_nil (minRank : Nat) : Covers {} minRank [] :=
  ⟨rfl, rfl, rfl, rfl⟩

/-- **One diagnostic more** is one message more: it is counted, and shown if it ranks high enough. -/
theorem Covers.add (h : t.Covers minRank messages) (name : String) (d : Diagnostic) :
    (t.add minRank name d).Covers minRank (messages ++ [(name, d)]) := by
  have herrors : (if d.severity = .error then t.errors + 1 else t.errors) =
      (messages ++ [(name, d)]).countP fun m => m.2.severity = .error := by
    simp only [List.countP_append, List.countP_singleton, ← h.errors, decide_eq_true_eq]
    split <;> rfl
  rw [Tally.add]
  split
  · -- it ranks too low, and only the counts of all messages go on
    rename_i hlow
    have hshown : shown minRank (messages ++ [(name, d)]) = shown minRank messages := by
      simp [shown, hlow]
    refine ⟨?_, herrors, ?_, ?_⟩
    · simp [h.total]
    · rw [hshown, ← h.reported]
    · rw [hshown, ← h.lines]
  · rename_i hhigh
    have hshown : shown minRank (messages ++ [(name, d)]) =
        shown minRank messages ++ [(name, d)] := by
      simp [shown, Nat.le_of_not_lt hhigh]
    refine ⟨?_, herrors, ?_, ?_⟩
    · simp [h.total]
    · simp [hshown, h.reported]
    · simp [hshown, h.lines]

/-- **The diagnostics of a script**, one after the other, are as many messages more. -/
theorem Covers.foldl_add (h : t.Covers minRank messages) (name : String) (ds : List Diagnostic) :
    (ds.foldl (fun t d => t.add minRank name d) t).Covers minRank
      (messages ++ ds.map fun d => (name, d)) := by
  induction ds generalizing t messages with
  | nil => simpa using h
  | cons d ds ih => simpa using ih (h.add name d)

/-- **All scripts**, one after the other: in the end their messages are counted, and no others. -/
theorem covers_tally {engine : Engine} {scripts : List Source} {more : List (String × Diagnostic)}
    (hmore : Messages engine scripts more) (h : t.Covers minRank messages) :
    ∃ t', tally engine minRank t scripts = .ok t' ∧ t'.Covers minRank (messages ++ more) := by
  induction hmore generalizing t messages with
  | nil => exact ⟨t, rfl, by simpa using h⟩
  | @cons s rest result more hlint _ ih =>
    obtain ⟨t', htally, hcovers⟩ :=
      ih (h.foldl_add s.name (result.findings.map Diagnostic.ofFinding))
    rw [List.map_map, List.append_assoc] at hcovers
    refine ⟨t', ?_, hcovers⟩
    rw [tally, hlint]
    exact htally

end Tally

/-! ### Outcomes -/

/-- An outcome that prints the messages `visible`, and counts all of them. -/
structure Reports (out : Outcome) (messages visible : List (String × Diagnostic)) : Prop where
  /-- Each visible message has its line, and one for its suggestions; the last line counts. -/
  output : out.output = printed (visible.flatMap (fun d => diagnosticLines d.1 d.2) ++
    ["", s!"Total issues found: {messages.length} ({visible.length} reported)"])
  /-- Nothing goes to the standard error. -/
  errors : out.errors = ""
  /-- With an error among all messages the exit code is one. -/
  failing : out.exitCode = 1 ↔ ∃ m ∈ messages, m.2.severity = .error
  /-- Else it is zero. -/
  passing : out.exitCode = 0 ↔ ∀ m ∈ messages, m.2.severity ≠ .error

theorem Tally.Covers.reports {t : Tally} {minRank : Nat} {messages : List (String × Diagnostic)}
    (h : t.Covers minRank messages) : Reports t.outcome messages (shown minRank messages) := by
  have hpos : 0 < t.errors ↔ ∃ m ∈ messages, m.2.severity = .error := by
    simp [h.errors, List.countP_pos_iff]
  have hzero : t.errors = 0 ↔ ∀ m ∈ messages, m.2.severity ≠ .error := by
    simp [h.errors, List.countP_eq_zero]
  have hcode : t.outcome.exitCode = if 0 < t.errors then 1 else 0 := rfl
  refine ⟨?_, rfl, ?_, ?_⟩
  · rw [← h.lines, ← h.total, ← h.reported]
    rfl
  · rw [hcode, ← hpos]
    split <;> omega
  · rw [hcode, ← hzero]
    split <;> omega

/-- What is shown plays no part in the exit code. -/
theorem Tally.Covers.exitCode_eq {t₁ t₂ : Tally} {r₁ r₂ : Nat}
    {messages : List (String × Diagnostic)} (h₁ : t₁.Covers r₁ messages)
    (h₂ : t₂.Covers r₂ messages) : t₁.outcome.exitCode = t₂.outcome.exitCode := by
  rw [outcome, outcome, h₁.errors, h₂.errors]

/-- Showing what is more severe of what is shown already is showing it of all. -/
theorem shown_shown {r₁ r₂ : Nat} (h : r₁ ≤ r₂) (messages : List (String × Diagnostic)) :
    shown r₂ (shown r₁ messages) = shown r₂ messages := by
  rw [shown, shown, List.filter_filter]
  refine List.filter_congr fun d _ => ?_
  simpa using fun hd => Nat.le_trans h hd

/-- The rank of a severity that is asked for.  One that is not known counts as `info`. -/
theorem rankOf_eq (severity : String) : rankOf severity =
    if Text.lower severity = "error" then Severity.rank .error
    else if Text.lower severity = "warning" ∨ Text.lower severity = "warn" then
      Severity.rank .warning
    else Severity.rank .info := by
  rw [rankOf]
  generalize Text.lower severity = s
  by_cases herror : s = "error"
  · subst herror
    rfl
  by_cases hwarning : s = "warning"
  · subst hwarning
    rfl
  by_cases hwarn : s = "warn"
  · subst hwarn
    rfl
  rw [if_neg herror, if_neg (by simp [hwarning, hwarn])]
  by_cases hinfo : s = "info"
  · subst hinfo
    rfl
  rw [Entries.lookup_eq_none_iff.2 (by simp [herror, hwarning, hwarn, hinfo])]
  rfl

/-! ### Lints that differ in the severity asked for -/

/-- The scripts of a lint: the sources, or the commands in them, numbered source by source. -/
def scriptsOf (extract : Bool) (sources : List Source) : List Source :=
  if extract then
    sources.flatMap fun s => (Transcript.commands s.text).zipIdx.map fun c =>
      ⟨s.name ++ "#" ++ toString c.2, c.1⟩
  else sources

theorem extracted_eq (s : Source) : s.extracted =
    (Transcript.commands s.text).zipIdx.map fun c => ⟨s.name ++ "#" ++ toString c.2, c.1⟩ := by
  rw [Source.extracted, List.mapIdx_eq_zipIdx_map]
  rfl

theorem lintSources_of_messages {config : Config} {o : LintOptions} {sources : List Source}
    {messages : List (String × Diagnostic)}
    (h : Messages (RuleTable.builtin.engine (some config)).value (scriptsOf o.extract sources)
      messages) :
    ∃ t : Tally, lintSources config o sources = .ok t.outcome ∧
      t.Covers (rankOf o.severity) messages := by
  obtain ⟨t, htally, hcovers⟩ := Tally.covers_tally h (Tally.covers_nil (rankOf o.severity))
  refine ⟨t, ?_, hcovers⟩
  have hscripts : (if o.extract then sources.flatMap Source.extracted else sources) =
      scriptsOf o.extract sources := by
    rw [scriptsOf, funext extracted_eq]
  rw [lintSources]
  simp only [hscripts, htally]

/-- What a request reads before it lints: the settings, and the sources. -/
structure Reads (look : String → Entry) (o : LintOptions) (config : Config)
    (sources : List Source) : Prop where
  /-- The path of the settings can be followed. -/
  path : hasNull o.config = false
  /-- The settings make sense. -/
  settings : ∃ ignored, ConfigFile.load (configSource look o.config) = .ok ⟨config, ignored⟩
  /-- The files are there and are texts; the script given as an argument comes first. -/
  sources : ∃ files texts, files? look o.files = .ok (some files) ∧ readTexts files = .ok texts ∧
    sources = sourcesOf o texts

theorem lint_of_files {look : String → Entry} {o : LintOptions} {files : List (String × ByteArray)}
    (hpath : hasNull o.config = false) (hfiles : files? look o.files = .ok (some files)) :
    lint look o = lintFiles look o files := by
  rw [lint, hpath, hfiles]
  rfl

theorem lint_of_reads {look : String → Entry} {o : LintOptions} {config : Config}
    {sources : List Source} (h : Reads look o config sources) (hsources : sources ≠ []) :
    lint look o = lintSources config o sources := by
  obtain ⟨hpath, ⟨ignored, hload⟩, files, texts, hfiles, htexts, rfl⟩ := h
  rw [lint_of_files hpath hfiles, lintFiles, hload, htexts]
  cases hcons : sourcesOf o texts with
  | nil => exact absurd hcons hsources
  | cons s rest => simp only [bind, Except.bind, hcons]

/-- A request is answered before the severity it asks for is looked at, or it comes to linting
sources. -/
theorem answered_or_reads (look : String → Entry) (o : LintOptions) :
    (∃ answer, ∀ severity, lint look { o with severity := severity } = answer) ∨
      ∃ config sources, sources ≠ [] ∧
        ∀ severity, Reads look { o with severity := severity } config sources := by
  cases hpath : hasNull o.config with
  | true => exact .inl ⟨.error .nullInPath, fun severity => by simp only [lint, hpath, if_true]⟩
  | false =>
  cases hfiles : files? look o.files with
  | error crash =>
    exact .inl ⟨.error crash, fun severity => by simp only [lint, hpath, hfiles]; rfl⟩
  | ok found =>
  cases found with
  | none => exact .inl ⟨.ok misuse, fun severity => by simp only [lint, hpath, hfiles]; rfl⟩
  | some files =>
  have hlint (severity : String) : lint look { o with severity := severity } =
      lintFiles look { o with severity := severity } files :=
    lint_of_files hpath hfiles
  cases hload : ConfigFile.load (configSource look o.config) with
  | error fault =>
    cases fault with
    | misfit m =>
      exact .inl ⟨.error (.config m), fun severity => by rw [hlint, lintFiles, hload]⟩
    | invalid issues => exact .inl ⟨.ok misuse, fun severity => by rw [hlint, lintFiles, hload]⟩
  | ok loaded =>
  cases htexts : readTexts files with
  | error crash =>
    exact .inl ⟨.error crash, fun severity => by rw [hlint, lintFiles, hload, htexts]; rfl⟩
  | ok texts =>
  cases hsources : sourcesOf o texts with
  | nil =>
    refine .inl ⟨.ok ⟨1, printed ["Error: Provide files or use --command"], ""⟩, fun severity => ?_⟩
    have hnone : sourcesOf { o with severity := severity } texts = [] := hsources
    rw [hlint, lintFiles, hload, htexts]
    simp only [bind, Except.bind, hnone]
    rfl
  | cons s rest =>
    refine .inr ⟨loaded.config, s :: rest, List.cons_ne_nil _ _, fun severity => ?_⟩
    exact ⟨hpath, ⟨loaded.ignored, hload⟩, files, texts, hfiles, htexts, hsources.symm⟩

theorem rules_engine_builtin (config : Option Config) :
    (RuleTable.builtin.engine config).value.rules = .builtin := by
  rw [RuleTable.engine_builtin, Engine.rules_forCommands]

/-- A request is refused, breaks off, fails or passes alike whatever severity it asks for. -/
theorem exitCode_lint (look : String → Entry) (o : LintOptions) (s₁ s₂ : String) :
    (lint look { o with severity := s₁ }).map Outcome.exitCode =
      (lint look { o with severity := s₂ }).map Outcome.exitCode := by
  rcases answered_or_reads look o with ⟨answer, hanswer⟩ | ⟨config, sources, hsources, hreads⟩
  · rw [hanswer, hanswer]
  · obtain ⟨messages, hmessages⟩ :=
      exists_messages (rules_engine_builtin (some config)) (scriptsOf o.extract sources)
    obtain ⟨t₁, hout₁, hcovers₁⟩ :=
      lintSources_of_messages (o := { o with severity := s₁ }) hmessages
    obtain ⟨t₂, hout₂, hcovers₂⟩ :=
      lintSources_of_messages (o := { o with severity := s₂ }) hmessages
    rw [lint_of_reads (hreads s₁) hsources, lint_of_reads (hreads s₂) hsources, hout₁, hout₂]
    exact congrArg Except.ok (hcovers₁.exitCode_eq hcovers₂)

/-- **The severity asked for hides lines, and never changes the verdict.**

The sources, or the commands in them, have messages.  Of two lints that differ in the severity asked
for, the one that asks for more shows exactly those messages of the other that are as severe as
that, in the same order and with their suggestions.  Both count all messages and those they show,
and both exit with one if any message is an error, shown or not.  A request that gets as far as its
sources lints them in this way, and no request ends differently for the severity it asks for. -/
theorem severity_hides_only_lines (o : LintOptions) :
    (∀ config sources, ∃ messages,
      Messages (RuleTable.builtin.engine (some config)).value (scriptsOf o.extract sources)
        messages ∧
      ∀ s₁ s₂, rankOf s₁ ≤ rankOf s₂ → ∃ out₁ out₂ visible₁ visible₂,
        lintSources config { o with severity := s₁ } sources = .ok out₁ ∧
        lintSources config { o with severity := s₂ } sources = .ok out₂ ∧
        Reports out₁ messages visible₁ ∧ Reports out₂ messages visible₂ ∧
        visible₁ = messages.filter (fun m => rankOf s₁ ≤ m.2.severity.rank) ∧
        visible₂ = visible₁.filter (fun m => rankOf s₂ ≤ m.2.severity.rank) ∧
        out₁.exitCode = out₂.exitCode) ∧
    (∀ severity, rankOf severity =
      if Text.lower severity = "error" then Severity.rank .error
      else if Text.lower severity = "warning" ∨ Text.lower severity = "warn" then
        Severity.rank .warning
      else Severity.rank .info) ∧
    ∀ look,
      (∀ config sources, Reads look o config sources → sources ≠ [] →
        lint look o = lintSources config o sources) ∧
      ∀ s₁ s₂, (lint look { o with severity := s₁ }).map Outcome.exitCode =
        (lint look { o with severity := s₂ }).map Outcome.exitCode := by
  refine ⟨fun config sources => ?_, rankOf_eq, fun look => ⟨fun config sources => lint_of_reads,
    exitCode_lint look o⟩⟩
  obtain ⟨messages, hmessages⟩ :=
    exists_messages (rules_engine_builtin (some config)) (scriptsOf o.extract sources)
  refine ⟨messages, hmessages, fun s₁ s₂ hrank => ?_⟩
  obtain ⟨t₁, hout₁, hcovers₁⟩ :=
    lintSources_of_messages (o := { o with severity := s₁ }) hmessages
  obtain ⟨t₂, hout₂, hcovers₂⟩ :=
    lintSources_of_messages (o := { o with severity := s₂ }) hmessages
  exact ⟨_, _, _, _, hout₁, hout₂, hcovers₁.reports, hcovers₂.reports, rfl,
    (shown_shown hrank messages).symm, hcovers₁.exitCode_eq hcovers₂⟩

/-- A command with too few arguments has one message. -/
theorem lint_too_few_arguments (file : Option String) :
    ∃ f, ((RuleTable.builtin.engine (some .standard)).value.lint "Delete()" file).value =
        .ok ⟨file, [f]⟩ ∧
      Diagnostic.ofFinding f = ⟨1, 1, "Command \"Delete\" expects 1 argument(s) but got 0",
        .warning, "correct-arg-types", some ["Expected signature: Delete( <Object> )",
          "Deletes an object and all its dependent objects."]⟩ := by
  let s : Statement := ⟨⟨"Delete", .point ⟨1, 1⟩⟩, [], ⟨⟨1, 1⟩, ⟨1, 8⟩⟩⟩
  obtain ⟨script, hparse, hbody⟩ : ∃ script,
      Script.parse "Delete()" = .ok script ∧ script.body = [s] := ⟨_, rfl, rfl⟩
  let object : Overload := ⟨"Delete", [⟨"Object", false, none⟩],
    "Deletes an object and all its dependent objects.", "Delete( <Object> )",
    [⟨"Delete A", "Delete(A)"⟩], ""⟩
  have hsome : Catalogue.bundled.overloads? "Delete" = some [object] :=
    Catalogue.overloads?_bundled [object] (by decide +kernel)
  rw [RuleTable.engine_builtin, Engine.forCommands, Option.getD_some]
  generalize Catalogue.bundled = catalogue at hsome ⊢
  let e : Engine := ⟨.builtin, .standard, catalogue⟩
  have hknown : UnknownCommand.check
      (e.context "Delete()" script UnknownCommand.rule .error) s = [] := by
    have hknows : catalogue.knows "Delete" = true := by rw [Catalogue.knows, hsome]; rfl
    exact if_pos (Bool.or_eq_true_iff.2 (.inr hknows))
  let ctx := e.context "Delete()" script ArgumentTypes.rule .warning
  have hcount : ArgumentTypes.check ctx s = [ArgumentTypes.miscount ctx s object] := by
    rw [ArgumentTypes.check_of_chosen hsome (.first rfl (by decide)),
      ArgumentTypes.checkCount_eq, if_neg (by decide)]
    rfl
  have hmessage : (ArgumentTypes.miscount ctx s object).message =
      "Command \"Delete\" expects 1 argument(s) but got 0" := by
    change "Command \"Delete\" expects " ++ toString 1 ++ " argument(s) but got " ++ toString 0 = _
    decide +kernel
  refine ⟨ArgumentTypes.miscount ctx s object, ?_, ?_⟩
  · rw [Engine.lint_standard_singleton catalogue hparse hbody file, hknown, hcount]
    rfl
  · rw [Diagnostic.ofFinding, hmessage]
    rfl

/-- A chat text with two commands: one has too few arguments, which is a warning, and one does not
parse.  A lint that asks for errors shows the second only.  It counts both all the same, and fails as
the lint that shows both. -/
theorem severity_hides_only_lines_extracted :
    ∃ (o : LintOptions) (warning error : String × Diagnostic) (out₁ out₂ : Outcome),
      o.command = some "`ggb:Delete()` and `ggb:(`" ∧ o.extract = true ∧
      rankOf "?" ≤ rankOf "Error" ∧
      lint (fun _ => .missing) { o with severity := "?" } = .ok out₁ ∧
      lint (fun _ => .missing) { o with severity := "Error" } = .ok out₂ ∧
      Reports out₁ [warning, error] [warning, error] ∧ Reports out₂ [warning, error] [error] ∧
      out₁.output = "WARNING: <command>#0:1:1 [correct-arg-types] Command \"Delete\" expects " ++
        "1 argument(s) but got 0\n    suggestions: Expected signature: Delete( <Object> ), " ++
        "Deletes an object and all its dependent objects.\n" ++
        "ERROR: <command>#1:1:1 [parse-error] Parse error at line 1, column 1: " ++
        "Expected identifier\n\nTotal issues found: 2 (2 reported)\n" ∧
      out₂.output = "ERROR: <command>#1:1:1 [parse-error] Parse error at line 1, column 1: " ++
        "Expected identifier\n\nTotal issues found: 2 (1 reported)\n" ∧
      out₁.exitCode = 1 ∧ out₂.exitCode = 1 := by
  let o : LintOptions := { command := some "`ggb:Delete()` and `ggb:(`", extract := true }
  let chat : List Source := [⟨"<command>", "`ggb:Delete()` and `ggb:(`"⟩]
  let warning : String × Diagnostic := ("<command>#0", ⟨1, 1,
    "Command \"Delete\" expects 1 argument(s) but got 0", .warning, "correct-arg-types",
    some ["Expected signature: Delete( <Object> )",
      "Deletes an object and all its dependent objects."]⟩)
  let error : String × Diagnostic := ("<command>#1", ⟨1, 1,
    "Parse error at line 1, column 1: Expected identifier", .error, "parse-error", none⟩)
  have hpath : hasNull ".ggb-lint.toml" = false := by decide
  have hreads (severity : String) :
      Reads (fun _ => .missing) { o with severity := severity } .standard chat :=
    ⟨hpath, ⟨false, rfl⟩, [], [], rfl, rfl, rfl⟩
  have hrank : rankOf "?" ≤ rankOf "Error" := by decide +kernel
  have hlint (severity : String) := ((severity_hides_only_lines
    { o with severity := severity }).2.2 _).1 _ _ (hreads severity) (by decide)
  obtain ⟨messages, hmessages, htwo⟩ := (severity_hides_only_lines o).1 .standard chat
  obtain ⟨out₁, out₂, visible₁, visible₂, hout₁, hout₂, hreports₁, hreports₂, hvisible₁, hvisible₂,
    -⟩ := htwo "?" "Error" hrank
  have hscripts : scriptsOf o.extract chat =
      [⟨"<command>#0", "Delete()"⟩, ⟨"<command>#1", "("⟩] := by decide +kernel
  rw [hscripts] at hmessages
  obtain rfl : messages = [warning, error] := by
    obtain ⟨f, hwarning, hf⟩ := lint_too_few_arguments (some "<command>#0")
    obtain ⟨e, hparse, he⟩ : ∃ e, Script.parse "(" = .error e ∧
      Diagnostic.ofFinding e.toFinding = error.2 := ⟨_, rfl, rfl⟩
    have herror : ((RuleTable.builtin.engine (some .standard)).value.lint "("
        (some "<command>#1")).value = .ok ⟨some "<command>#1", [e.toFinding]⟩ := by
      rw [Engine.lint, hparse]
    cases hmessages with
    | cons hfirst hrest =>
    cases hrest with
    | cons hsecond hnone =>
    cases hnone
    cases hfirst.symm.trans hwarning
    cases hsecond.symm.trans herror
    simp [hf, he, warning, error]
  have hall : visible₁ = [warning, error] := hvisible₁.trans (by decide +kernel)
  have herror : visible₂ = [error] := hvisible₂.trans (hall ▸ by decide +kernel)
  rw [hall] at hreports₁
  rw [herror] at hreports₂
  have hfails : ∃ m ∈ [warning, error], m.2.severity = .error := ⟨error, by simp, rfl⟩
  exact ⟨o, warning, error, out₁, out₂, rfl, rfl, hrank, (hlint "?").trans hout₁,
    (hlint "Error").trans hout₂, hreports₁, hreports₂, hreports₁.output.trans (by decide +kernel),
    hreports₂.output.trans (by decide +kernel), hreports₁.failing.2 hfails,
    hreports₂.failing.2 hfails⟩

end CommandLine

end GeoLint
