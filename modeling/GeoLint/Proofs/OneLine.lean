import GeoLint.Proofs.Catalogue.OneLine
import GeoLint.Proofs.EditDistance.Nearest
import GeoLint.Proofs.Rule.Mismatches
import GeoLint.Proofs.Syntax.Blank
import GeoLint.Proofs.Syntax.Complaints
import GeoLint.Proofs.Syntax.Nesting
import GeoLint.Proofs.Verdict
import GeoLint.Report

/-!
# Diagnostics on one line

A finding is shown on a line, in reports and by the command line.  Its message quotes names of
commands, texts of the catalogue and tokens.  Names are on one line (`oneLine_command`), and so are
the texts of the bundled catalogue (`Catalogue.fitsLines_bundled`).  Of the tokens the parser quotes
only one is not: the end of a line, where an expression is due (`stopsAtLineEnd`).

So each text of a finding is on one line, or there is one finding and it quotes such a line end as
it stands (`Engine.reported_cases`).  `LintResult.OnLines` says what follows for reports, and the
main statement, `diagnostics_one_line_iff`, what follows for every lint and for the command line.
-/

namespace GeoLint

open Text (OneLine)

/-! ### Names of commands -/

/-- A name is on one line. -/
theorem Token.oneLine_text_of_identifier {source : String} {t : Token} (h : t ∈ tokenize source)
    (hkind : t.kind = .identifier) : OneLine t.text := by
  obtain ⟨n, rfl⟩ := exists_tokenAt h
  obtain ⟨w, rest, hlexeme⟩ : ∃ w rest,
      IsLexeme (tokenAt source n).kind w (tokenAt source n).text.toList rest :=
    ⟨_, _, (takes (cursorAfter source n)).lexeme⟩
  rw [hkind] at hlexeme
  rw [OneLine]
  generalize (tokenAt source n).text.toList = text at *
  generalize hidentifier : Kind.identifier = kind at hlexeme
  cases hlexeme with
  | identifier hmatch =>
    obtain ⟨c, cs, rfl, hc, hcs⟩ := (mem_name_iff _).1 hmatch.1
    have hname : ∀ d ∈ c :: cs, isNameChar d = true :=
      List.forall_mem_cons.2 ⟨isNameChar_of_isLetter hc, hcs⟩
    exact fun d hd => Text.isLineBreak_of_not_isBlank (isBlank_of_isNameChar (hname d hd))
  | @single c =>
    unfold Kind.ofChar at hidentifier
    split at hidentifier <;> cases hidentifier
  | _ => cases hidentifier

theorem Grammar.IsStatement.exists_name {ts : List Token} {s : Statement} (h : IsStatement ts s) :
    ∃ t ∈ ts, t.kind = .identifier ∧ s.command = Parsing.nameOf t := by
  cases h with
  | call hf => exact ⟨_, by simp, hf, rfl⟩
  | assignedCall _ _ hf => exact ⟨_, by simp, hf, rfl⟩
  | assigned htarget => exact ⟨_, by simp, htarget, rfl⟩

/-- The name of a command is on one line. -/
theorem oneLine_command {source : String} {script : Script} (h : Script.parse source = .ok script)
    {s : Statement} (hs : s ∈ script.body) : OneLine s.command.text := by
  obtain ⟨uss, hslices, -⟩ := (isScript_of_parse h).slices
  obtain ⟨us, hus, hstatement⟩ := hslices.exists_slice hs
  obtain ⟨t, ht, hkind, hname⟩ := hstatement.exists_name
  rw [hname]
  exact Token.oneLine_text_of_identifier (hus.subset ht) hkind

/-! ### Findings -/

/-- What stands around the message of a finding is on one line. -/
structure Finding.Framed (f : Finding) : Prop where
  /-- The rule. -/
  ruleId : OneLine f.ruleId
  /-- Each suggestion. -/
  suggestions : ∀ s ∈ f.suggestions, OneLine s

/-- Each text of a finding is on one line. -/
structure Finding.FitsLines (f : Finding) : Prop extends f.Framed where
  /-- The message. -/
  message : OneLine f.message

section Rules

variable {ctx : Context} {s : Statement} {f : Finding}
variable (hid : OneLine ctx.ruleId) (hname : OneLine s.command.text)
variable (hcatalogue : ctx.catalogue.FitsLines)

include hid hname

theorem ArgumentTypes.fitsLines_miscount {o : Overload} (ho : o.FitsLines) :
    (miscount ctx s o).FitsLines := by
  have hliterals : OneLine "Command \"" ∧ OneLine "\" expects " ∧
    OneLine " argument(s) but got " := by decide +kernel
  have hsignature : OneLine "Expected signature: " := by decide +kernel
  refine ⟨⟨hid, List.forall_mem_cons.2 ⟨?_, List.forall_mem_singleton.2 ho.description⟩⟩, ?_⟩
  · exact Text.oneLine_append.2 ⟨hsignature, ho.signature⟩
  · change OneLine ("Command \"" ++ s.command.text ++ "\" expects " ++ o.total.repr ++
      " argument(s) but got " ++ s.arguments.length.repr)
    simp only [Text.oneLine_append, Text.oneLine_repr, hliterals, hname, and_self]

theorem ArgumentTypes.fitsLines_mistype (i : Nat) (arg : Expr) {slot : Parameter}
    (hslot : OneLine slot.type) : (mistype ctx s i arg slot).FitsLines := by
  have hliterals : OneLine "Argument " ∧ OneLine " of \"" ∧ OneLine "\" has the wrong type: " ∧
    OneLine "expected " ∧ OneLine ", got " := by decide +kernel
  have hshould : OneLine "This argument should be of type " := by decide +kernel
  have htype : OneLine arg.inferredType := by
    cases arg <;> rw [Expr.inferredType] <;> decide +kernel
  refine ⟨⟨hid, List.forall_mem_singleton.2 ?_⟩, ?_⟩
  · exact Text.oneLine_append.2 ⟨hshould, hslot⟩
  · change OneLine ("Argument " ++ (i + 1).repr ++ " of \"" ++ s.command.text ++
      "\" has the wrong type: " ++ ("expected " ++ slot.type ++ ", got " ++ arg.inferredType))
    simp only [Text.oneLine_append, Text.oneLine_repr, hliterals, hname, hslot, htype, and_self]

include hcatalogue

theorem UnknownCommand.fitsLines_of_mem_check (h : f ∈ check ctx s) : f.FitsLines := by
  have hliterals : OneLine "Unknown command \"" ∧ OneLine "\"" := by decide +kernel
  rw [check] at h
  split at h
  · cases h
  obtain rfl := List.mem_singleton.1 h
  refine ⟨⟨hid, fun suggestion hmem => ?_⟩, ?_⟩
  · change suggestion ∈ EditDistance.similar _ _ _ at hmem
    rw [EditDistance.similar_eq] at hmem
    obtain ⟨i, -, rfl⟩ := List.mem_map.1 hmem
    exact hcatalogue.names _ (List.get_mem _ i)
  · change OneLine ("Unknown command \"" ++ s.command.text ++ "\"")
    simp only [Text.oneLine_append, hliterals, hname, and_self]

theorem ArgumentTypes.fitsLines_of_mem_check (h : f ∈ check ctx s) : f.FitsLines := by
  rw [check] at h
  split at h
  · cases h
  rename_i o hbest
  obtain ⟨os, hos, hchosen⟩ := Catalogue.bestMatch?_eq_some_iff.1 hbest
  have ho := hcatalogue.overloads _ _ ⟨os, hos, hchosen.mem⟩
  rcases List.mem_append.1 h with h | h
  · rw [checkCount_eq] at h
    split at h
    · cases h
    · obtain rfl := List.mem_singleton.1 h
      exact fitsLines_miscount hid hname ho
  · obtain ⟨i, arg, slot, hslot, rfl⟩ := exists_mistype_of_mem_checkTypes h
    exact fitsLines_mistype hid hname i arg (ho.types slot hslot)

end Rules

/-- The finding about a script in which the parser stops at the end of a line: the message quotes
the line end as it stands. -/
def lineEndFinding (p : Position) : Finding where
  ruleId := parseErrorId
  message := s!"Parse error at line {p.line}, column {p.column}: " ++
    "Unexpected token: NEWLINE (value: '" ++ "\n" ++ "')"
  severity := .error
  span := .point p
  node := none
  suggestions := []

theorem oneLine_parseErrorId : OneLine parseErrorId := by decide +kernel

theorem not_oneLine_lineEndFinding (p : Position) : ¬ OneLine (lineEndFinding p).message := by
  have hbreak : ¬ OneLine "\n" := by decide
  exact fun h => hbreak (Text.oneLine_append.1 (Text.oneLine_append.1 h).1).2

theorem SyntaxError.toFinding_of_complaint {error : SyntaxError}
    (h : error.complaint = .unexpected .newline "\n") :
    error.toFinding = lineEndFinding error.position := by
  have hdetail : error.complaint.detail =
      "Unexpected token: NEWLINE (value: '" ++ "\n" ++ "')" := by
    rw [h]
    decide +kernel
  have hmessage : error.message = (lineEndFinding error.position).message := by
    unfold message
    rw [hdetail]
    simp only [lineEndFinding, String.append_assoc]
    rfl
  unfold toFinding
  rw [hmessage]
  rfl

theorem SyntaxError.fitsLines_toFinding {error : SyntaxError} (h : OneLine error.complaint.detail) :
    error.toFinding.FitsLines :=
  ⟨⟨oneLine_parseErrorId, List.forall_mem_nil _⟩, error.oneLine_message.2 h⟩

namespace Engine

variable {e : Engine} (hcatalogue : e.catalogue.FitsLines)

include hcatalogue

theorem fitsLines_of_mem_findings {source : String} {script : Script}
    (hparse : Script.parse source = .ok script) {f : Finding} (h : f ∈ e.findings source script) :
    f.FitsLines := by
  have hunknown : OneLine UnknownCommand.rule.id := by decide +kernel
  have htypes : OneLine ArgumentTypes.rule.id := by decide +kernel
  rcases List.mem_append.1 h with h | h
  · obtain ⟨severity, -, s, hs, h⟩ := (mem_found e source script).1 h
    exact UnknownCommand.fitsLines_of_mem_check hunknown (oneLine_command hparse hs) hcatalogue h
  · obtain ⟨severity, -, s, hs, h⟩ := (mem_found e source script).1 h
    exact ArgumentTypes.fitsLines_of_mem_check htypes (oneLine_command hparse hs) hcatalogue h

/-- **What is reported fits lines**, unless the parser stops at the end of a line. -/
theorem reported_cases (source : String) :
    (stopsAtLineEnd source = true ∧ ∃ p, e.reported source = [lineEndFinding p]) ∨
      stopsAtLineEnd source = false ∧ ∀ f ∈ e.reported source, f.FitsLines := by
  rw [reported]
  cases hparse : Script.parse source with
  | ok script =>
    refine .inr ⟨by rw [stopsAtLineEnd, hparse], fun f hf => ?_⟩
    exact fitsLines_of_mem_findings hcatalogue hparse hf
  | error error =>
    rcases complaint_cases hparse with ⟨hstops, hcomplaint⟩ | ⟨hstops, hdetail⟩
    · have hfinding := SyntaxError.toFinding_of_complaint hcomplaint
      exact .inl ⟨hstops, error.position, congrArg ([·]) hfinding⟩
    · exact .inr ⟨hstops, List.forall_mem_singleton.2 (SyntaxError.fitsLines_toFinding hdetail)⟩

theorem framed_of_mem_reported {source : String} {f : Finding} (h : f ∈ e.reported source) :
    f.Framed := by
  rcases reported_cases hcatalogue source with ⟨-, p, hreported⟩ | ⟨-, hfits⟩
  · rw [hreported, List.mem_singleton] at h
    rw [h]
    exact ⟨oneLine_parseErrorId, List.forall_mem_nil _⟩
  · exact (hfits f h).toFramed

end Engine

/-! ### Reports -/

/-- The lines of a report before its findings: the file, and how many findings there are. -/
def LintResult.headerLines (r : LintResult) : List String :=
  (match r.file with
    | some file => if file.isEmpty then [] else [s!"File: {file}"]
    | none => []) ++
  if r.findings.isEmpty then ["✓ No problems found"]
  else [s!"Found {r.count .error} error(s), {r.count .warning} warning(s):", ""]

/-- The lines of a report behind its header lines: each finding in turn. -/
def LintResult.entries (r : LintResult) : List String :=
  (r.findings.mapIdx fun i f => f.reportLines (i + 1)).flatten

section Report

variable {f : Finding} {r : LintResult}

theorem Finding.forall_mem_reportLines {P : String → Prop} (f : Finding) (number : Nat) :
    (∀ l ∈ f.reportLines number, P l) ↔
      (P (number.repr ++ ". " ++ f.severity.icon ++ " [" ++ f.ruleId ++ "] " ++ f.message) ∧
        P ("   at line " ++ f.span.start.line.repr ++ ", column " ++ f.span.start.column.repr)) ∧
      (f.suggestions ≠ [] → P ("   suggestions: " ++ ", ".intercalate f.suggestions)) := by
  unfold reportLines suggestionLine
  rw [List.forall_mem_append, List.forall_mem_cons, List.forall_mem_singleton]
  refine and_congr Iff.rfl ?_
  cases f.suggestions with
  | nil => simp
  | cons s ss => simp

/-- A finding is reported on lines if its message is one. -/
theorem Finding.Framed.oneLine_reportLines_iff (h : f.Framed) (number : Nat) :
    (∀ l ∈ f.reportLines number, OneLine l) ↔ OneLine f.message := by
  have hliterals : OneLine ". " ∧ OneLine " [" ∧ OneLine "] " ∧ OneLine "   at line " ∧
    OneLine ", column " ∧ OneLine "   suggestions: " := by decide +kernel
  have hicon : OneLine f.severity.icon := by cases f.severity <;> decide +kernel
  have hsuggestions := Text.oneLine_intercalate (s := ", ") (by decide +kernel) h.suggestions
  rw [f.forall_mem_reportLines]
  simp only [Text.oneLine_append, Text.oneLine_repr, hliterals, hicon, h.ruleId, hsuggestions,
    true_and, and_true, implies_true]

theorem Finding.ne_empty_of_mem_reportLines {number : Nat} :
    ∀ l ∈ f.reportLines number, l ≠ "" := by
  rw [f.forall_mem_reportLines]
  simp [String.append_eq_empty_iff]

/-- Each finding has two lines, and one more for its suggestions. -/
theorem length_flatten_mapIdx {g : Nat → Finding → List String}
    (hg : ∀ i f, (g i f).length = 2 + if f.suggestions.isEmpty then 0 else 1)
    (fs : List Finding) :
    (fs.mapIdx g).flatten.length =
      2 * fs.length + fs.countP fun f => !f.suggestions.isEmpty := by
  induction fs generalizing g with
  | nil => rfl
  | cons f fs ih =>
    rw [List.mapIdx_cons, List.flatten_cons, List.length_append, hg, ih fun i => hg (i + 1),
      List.length_cons, List.countP_cons]
    cases f.suggestions.isEmpty <;> simp <;> omega

theorem LintResult.length_entries (r : LintResult) : r.entries.length =
    2 * r.findings.length + r.findings.countP fun f => !f.suggestions.isEmpty := by
  refine length_flatten_mapIdx (fun i f => ?_) r.findings
  unfold Finding.reportLines
  cases f.suggestions.isEmpty <;> rfl

theorem LintResult.forall_mem_entries {P : String → Prop} : (∀ l ∈ r.entries, P l) ↔
    ∀ (i : Nat) (h : i < r.findings.length), ∀ l ∈ r.findings[i].reportLines (i + 1), P l := by
  simp only [entries, List.mem_flatten, List.mem_mapIdx]
  constructor
  · intro h i hi l hl
    exact h l ⟨_, ⟨i, hi, rfl⟩, hl⟩
  · rintro h l ⟨_, ⟨i, hi, rfl⟩, hl⟩
    exact h i hi l hl

theorem LintResult.report_eq (r : LintResult) :
    r.report = "\n".intercalate (r.headerLines ++ r.entries) := by
  unfold report headerLines entries
  rw [List.append_assoc]
  cases r.findings <;> rfl

/-- **The findings of a report can be read back line by line** exactly if each message is on one
line. -/
theorem LintResult.lines_entries_iff (h : ∀ f ∈ r.findings, f.Framed) :
    Text.lines ("\n".intercalate r.entries).toList = r.entries.map String.toList ↔
      ∀ f ∈ r.findings, OneLine f.message := by
  have hne : ∀ l ∈ r.entries.map String.toList, l ≠ [] := by
    rw [List.forall_mem_map, LintResult.forall_mem_entries]
    intro i hi l hl hnil
    exact Finding.ne_empty_of_mem_reportLines l hl (String.toList_eq_nil_iff.1 hnil)
  have hbreak : "\n".toList = ['\n'] := rfl
  rw [String.toList_intercalate, hbreak, Text.lines_intercalate_iff hne, List.forall_mem_map]
  change (∀ l ∈ r.entries, OneLine l) ↔ _
  rw [forall_mem_entries]
  constructor
  · intro hlines f hf
    obtain ⟨i, hi, rfl⟩ := List.getElem_of_mem hf
    exact ((h _ hf).oneLine_reportLines_iff _).1 (hlines i hi)
  · intro hmessages i hi
    have hf := List.getElem_mem hi
    exact ((h _ hf).oneLine_reportLines_iff _).2 (hmessages _ hf)

/-- A line end in the message ends a line of the report. -/
theorem reportLines_lineEndFinding (p : Position) (number : Nat) :
    ∃ first place, (lineEndFinding p).reportLines number = [first ++ "\n" ++ "')", place] ∧
      OneLine first ∧ OneLine place ∧ place ≠ "" := by
  -- the same finding, with the message up to the line end
  let lead : String := s!"Parse error at line {p.line}, column {p.column}: " ++
    "Unexpected token: NEWLINE (value: '"
  let f : Finding := { lineEndFinding p with message := lead }
  have hframed : f.Framed := ⟨oneLine_parseErrorId, List.forall_mem_nil _⟩
  have hlead : OneLine lead := by
    have hliterals : OneLine "Parse error at line " ∧ OneLine ", column " ∧ OneLine ": " ∧
      OneLine "Unexpected token: NEWLINE (value: '" := by decide +kernel
    change OneLine ("Parse error at line " ++ p.line.repr ++ ", column " ++ p.column.repr ++ ": " ++
      "Unexpected token: NEWLINE (value: '")
    simp only [Text.oneLine_append, Text.oneLine_repr, hliterals, and_self]
  obtain ⟨⟨hfirst, hplace⟩, -⟩ :=
    (f.forall_mem_reportLines number).1 ((hframed.oneLine_reportLines_iff number).2 hlead)
  obtain ⟨⟨-, hne⟩, -⟩ := (f.forall_mem_reportLines number).1 Finding.ne_empty_of_mem_reportLines
  refine ⟨_, _, ?_, hfirst, hplace, hne⟩
  have hlines : (lineEndFinding p).reportLines number =
      [number.repr ++ ". " ++ f.severity.icon ++ " [" ++ f.ruleId ++ "] " ++ (lead ++ "\n" ++ "')"),
        "   at line " ++ f.span.start.line.repr ++ ", column " ++ f.span.start.column.repr] := rfl
  rw [hlines, ← String.append_assoc, ← String.append_assoc]

/-- A line end in the message takes a line more. -/
theorem LintResult.length_lines_of_lineEnd {p : Position} (h : r.findings = [lineEndFinding p]) :
    (Text.lines ("\n".intercalate r.entries).toList).length = 3 := by
  obtain ⟨first, place, hlines, hfirst, hplace, hne⟩ := reportLines_lineEndFinding p 1
  have hentries : r.entries = [first ++ "\n" ++ "')", place] := by
    rw [entries, h]
    simpa using hlines
  have htext : ("\n".intercalate r.entries).toList =
      first.toList ++ '\n' :: ("')".toList ++ '\n' :: place.toList) := by
    simp [hentries]
  have hclosing : OneLine "')" := by decide +kernel
  rw [htext, Text.lines_append hfirst, Text.lines_append hclosing,
    Text.lines_singleton (mt String.toList_eq_nil_iff.1 hne) hplace]
  rfl

/-- How far the result of a lint is on lines, by where the parser stops in the source. -/
structure LintResult.OnLines (r : LintResult) (source : String) : Prop where
  /-- No message has a line break, unless the parser stops at the end of a line. -/
  messages : (∀ f ∈ r.findings, OneLine f.message) ↔ stopsAtLineEnd source = false
  /-- If it does, there is one finding, whose message has that line end in it. -/
  lineEnd : (∃ p, r.findings = [lineEndFinding p]) ↔ stopsAtLineEnd source = true
  /-- The report is its header lines and the lines of each finding. -/
  report : r.report = "\n".intercalate (r.headerLines ++ r.entries)
  /-- Behind the header lines these are the lines that are read, unless the parser stops so. -/
  entries : Text.lines ("\n".intercalate r.entries).toList = r.entries.map String.toList ↔
    stopsAtLineEnd source = false
  /-- There are two for each finding, one for each with suggestions, and then one too many. -/
  length : (Text.lines ("\n".intercalate r.entries).toList).length =
    2 * r.findings.length + r.findings.countP (fun f => !f.suggestions.isEmpty) +
      (stopsAtLineEnd source).toNat

theorem onLines_reported {e : Engine} (hcatalogue : e.catalogue.FitsLines) (source : String)
    (file : Option String) : LintResult.OnLines ⟨file, e.reported source⟩ source := by
  let r : LintResult := ⟨file, e.reported source⟩
  have hentries := LintResult.lines_entries_iff (r := r) fun f hf =>
    Engine.framed_of_mem_reported hcatalogue hf
  rcases Engine.reported_cases hcatalogue source with ⟨hstops, p, hreported⟩ | ⟨hstops, hfits⟩
  · have hmessage : ¬ ∀ f ∈ r.findings, OneLine f.message := by
      intro h
      exact not_oneLine_lineEndFinding p (h _ (by simp [r, hreported]))
    refine ⟨iff_of_false hmessage (by simp [hstops]), iff_of_true ⟨p, hreported⟩ hstops,
      r.report_eq, hentries.trans (iff_of_false hmessage (by simp [hstops])), ?_⟩
    rw [LintResult.length_lines_of_lineEnd hreported]
    simp [hreported, hstops, lineEndFinding]
  · have hmessages : ∀ f ∈ r.findings, OneLine f.message := fun f hf => (hfits f hf).message
    refine ⟨iff_of_true hmessages hstops, iff_of_false ?_ (by simp [hstops]), r.report_eq,
      hentries.trans (iff_of_true hmessages hstops), ?_⟩
    · rintro ⟨p, hfindings⟩
      have hreported : r.findings = [lineEndFinding p] := hfindings
      exact not_oneLine_lineEndFinding p (hmessages _ (by simp [hreported]))
    · rw [hentries.2 hmessages, List.length_map, r.length_entries, hstops]
      rfl

end Report

/-! ### The command line -/

namespace CommandLine

theorem Messages.mem_iff {engine : Engine} (hrules : engine.rules = .builtin)
    {scripts : List Source} {messages : List (String × Diagnostic)}
    (h : Messages engine scripts messages) {m : String × Diagnostic} :
    m ∈ messages ↔ ∃ s ∈ scripts, ∃ f ∈ engine.reported s.text, m = (s.name, .ofFinding f) := by
  induction h with
  | nil => simp
  | cons hlint _ ih =>
    rw [Engine.lint_builtin hrules, Except.ok.injEq] at hlint
    simp [← hlint, ih, eq_comm]

theorem forall_mem_diagnosticLines {P : String → Prop} (name : String) (f : Finding) :
    (∀ l ∈ diagnosticLines name (.ofFinding f), P l) ↔
      P (capitals f.severity ++ ": " ++ name ++ ":" ++ f.span.start.line.repr ++ ":" ++
        f.span.start.column.repr ++ " [" ++ f.ruleId ++ "] " ++ f.message) ∧
      (f.suggestions ≠ [] → P ("    suggestions: " ++ ", ".intercalate f.suggestions)) := by
  unfold diagnosticLines
  rw [List.forall_mem_cons]
  refine and_congr Iff.rfl ?_
  unfold Diagnostic.ofFinding
  cases f.suggestions with
  | nil => simp
  | cons s ss => simp

/-- A diagnostic is printed on lines if its script's name and its message are lines. -/
theorem oneLine_diagnosticLines_iff {f : Finding} (h : f.Framed) (name : String) :
    (∀ l ∈ diagnosticLines name (.ofFinding f), OneLine l) ↔ OneLine name ∧ OneLine f.message := by
  have hliterals : OneLine ": " ∧ OneLine ":" ∧ OneLine " [" ∧ OneLine "] " ∧
    OneLine "    suggestions: " := by decide +kernel
  have hcapitals : OneLine (capitals f.severity) := by cases f.severity <;> decide +kernel
  have hsuggestions := Text.oneLine_intercalate (s := ", ") (by decide +kernel) h.suggestions
  rw [forall_mem_diagnosticLines]
  simp only [Text.oneLine_append, Text.oneLine_repr, hliterals, hcapitals, h.ruleId, hsuggestions,
    true_and, and_true, implies_true]

/-- **What is printed can be read back line by line** exactly if each line is one. -/
theorem lines_printed_iff (ls : List String) :
    Text.lines (printed ls).toList = ls.map (fun l => Text.unstyled l.toList) ↔
      ∀ l ∈ ls, OneLine l := by
  have hprinted : (printed ls).toList =
      (ls.map fun l => Text.unstyled l.toList).flatMap (· ++ ['\n']) := by
    simp [printed, String.toList_join, List.flatMap_map]
  rw [hprinted, Text.lines_flatMap_iff, List.forall_mem_map]
  exact forall₂_congr fun l _ => Text.oneLine_unstyled

/-- Whatever severity is asked for, errors are shown. -/
theorem rankOf_le (severity : String) : rankOf severity ≤ Severity.rank .error := by
  rw [rankOf_eq]
  split
  · exact Nat.le_refl _
  · split <;> decide

theorem oneLine_total (total visible : Nat) :
    OneLine s!"Total issues found: {total} ({visible} reported)" := by
  have hliterals : OneLine "Total issues found: " ∧ OneLine " (" ∧ OneLine " reported)" := by
    decide +kernel
  change OneLine ("Total issues found: " ++ total.repr ++ " (" ++ visible.repr ++ " reported)")
  simp only [Text.oneLine_append, Text.oneLine_repr, hliterals, and_self]

section Output

variable {engine : Engine} (hrules : engine.rules = .builtin)
variable (hcatalogue : engine.catalogue.FitsLines)
variable {scripts : List Source} {messages : List (String × Diagnostic)}
variable (hmessages : Messages engine scripts messages)

include hrules hcatalogue hmessages

/-- The diagnostics that are shown are on lines exactly if the names of their scripts are, and if the
parser stops at the end of a line in none of the scripts.  That is an error, and errors are always
shown. -/
theorem oneLine_shown_iff {minRank : Nat} (hrank : minRank ≤ Severity.rank .error) :
    (∀ l ∈ (shown minRank messages).flatMap (fun m => diagnosticLines m.1 m.2), OneLine l) ↔
      (∀ m ∈ shown minRank messages, OneLine m.1) ∧
        ∀ s ∈ scripts, stopsAtLineEnd s.text = false := by
  have hmem (m : String × Diagnostic) : m ∈ shown minRank messages ↔
      (∃ s ∈ scripts, ∃ f ∈ engine.reported s.text, m = (s.name, .ofFinding f)) ∧
        minRank ≤ m.2.severity.rank := by
    rw [shown, List.mem_filter, hmessages.mem_iff hrules, decide_eq_true_eq]
  have hfits (s : Source) (f : Finding) (hf : f ∈ engine.reported s.text) :
      (∀ l ∈ diagnosticLines s.name (.ofFinding f), OneLine l) ↔
        OneLine s.name ∧ OneLine f.message :=
    oneLine_diagnosticLines_iff (Engine.framed_of_mem_reported hcatalogue hf) s.name
  rw [List.forall_mem_flatMap]
  constructor
  · intro hlines
    refine ⟨fun m hm => ?_, fun s hs => ?_⟩
    · obtain ⟨⟨s, hs, f, hf, rfl⟩, -⟩ := (hmem m).1 hm
      have hdiagnostic := hlines _ hm
      exact ((hfits s f hf).1 hdiagnostic).1
    · rcases Engine.reported_cases hcatalogue s.text with ⟨-, p, hreported⟩ | ⟨hstops, -⟩
      · have hf : lineEndFinding p ∈ engine.reported s.text := by simp [hreported]
        have hm := (hmem (s.name, .ofFinding (lineEndFinding p))).2 ⟨⟨s, hs, _, hf, rfl⟩, hrank⟩
        have hdiagnostic := hlines _ hm
        exact absurd ((hfits s _ hf).1 hdiagnostic).2 (not_oneLine_lineEndFinding p)
      · exact hstops
  · rintro ⟨hnames, hstops⟩ m hm
    obtain ⟨⟨s, hs, f, hf, rfl⟩, -⟩ := (hmem m).1 hm
    refine (hfits s f hf).2 ⟨hnames _ hm, ?_⟩
    rcases Engine.reported_cases hcatalogue s.text with ⟨htrue, -⟩ | ⟨-, hmessage⟩
    · rw [hstops s hs] at htrue
      cases htrue
    · exact (hmessage f hf).message

end Output

end CommandLine

open CommandLine

/-- **Diagnostics are on one line each, unless the parser stops at the end of a line.**

With the built-in rules and the bundled catalogue, whatever the configuration, a lint has a result.
Its messages have no line break exactly if the parser does not stop at the end of a line
where an expression is due, and then a report has two lines for each finding and one for each with
suggestions behind its header lines; else it has one more.  The command line prints severity, name,
place, rule and message of each diagnostic it shows.  What it prints can be read back line by line
exactly if the parser stops so in none of the scripts, and the names of the scripts are on one line
themselves. -/
theorem diagnostics_one_line_iff (config : Option Config) :
    (∀ (source : String) (file : Option String), ∃ result,
      ((RuleTable.builtin.engine config).value.lint source file).value = .ok result ∧
        result.OnLines source) ∧
    ∀ (o : LintOptions) (sources : List Source), ∃ out messages visible lines,
      lintSources (config.getD .standard) o sources = .ok out ∧
      (∀ look, Reads look o (config.getD .standard) sources → sources ≠ [] →
        lint look o = .ok out) ∧
      Messages (RuleTable.builtin.engine config).value (scriptsOf o.extract sources) messages ∧
      visible = messages.filter (fun m => rankOf o.severity ≤ m.2.severity.rank) ∧
      lines = visible.flatMap (fun m => diagnosticLines m.1 m.2) ++
        ["", s!"Total issues found: {messages.length} ({visible.length} reported)"] ∧
      (∀ m ∈ visible, ∃ more, diagnosticLines m.1 m.2 =
        s!"{capitals m.2.severity}: {m.1}:{m.2.line}:{m.2.column} [{m.2.ruleId}] {m.2.message}" ::
          more) ∧
      out.output = printed lines ∧
      (Text.lines out.output.toList = lines.map (fun l => Text.unstyled l.toList) ↔
        (∀ m ∈ visible, OneLine m.1) ∧
          ∀ s ∈ scriptsOf o.extract sources, stopsAtLineEnd s.text = false) := by
  have hrules := rules_engine_builtin config
  have hcatalogue : (RuleTable.builtin.engine config).value.catalogue.FitsLines := by
    rw [RuleTable.engine_builtin, Engine.catalogue_forCommands]
    exact Catalogue.fitsLines_bundled
  refine ⟨fun source file => ?_, fun o sources => ?_⟩
  · exact ⟨_, Engine.lint_builtin hrules source file, onLines_reported hcatalogue source file⟩
  · -- no configuration stands for the standard one
    have hengine : (RuleTable.builtin.engine (some (config.getD .standard))).value =
        (RuleTable.builtin.engine config).value := by
      rw [RuleTable.engine_builtin, RuleTable.engine_builtin]
      rfl
    obtain ⟨messages, hmessages⟩ := exists_messages hrules (scriptsOf o.extract sources)
    obtain ⟨t, hout, hcovers⟩ := lintSources_of_messages (o := o) (hengine ▸ hmessages)
    refine ⟨_, messages, shown (rankOf o.severity) messages, _, hout,
      fun look hreads hne => (lint_of_reads hreads hne).trans hout, hmessages, rfl, rfl,
      fun m _ => ⟨_, rfl⟩, hcovers.reports.output, ?_⟩
    rw [hcovers.reports.output, lines_printed_iff, List.forall_mem_append]
    refine (and_iff_left ?_).trans
      (oneLine_shown_iff hrules hcatalogue hmessages (rankOf_le o.severity))
    rw [List.forall_mem_cons, List.forall_mem_singleton]
    exact ⟨by decide, oneLine_total _ _⟩

/-- A script that ends where an expression is due has its error on one line. -/
theorem diagnostics_one_line_iff_command :
    ∃ (o : LintOptions) (out : Outcome), o.command = some "F(" ∧
      lint (fun _ => .missing) o = .ok out ∧
      Text.lines out.output.toList =
        ["ERROR: <command>:1:3 [parse-error] Parse error at line 1, column 3: " ++
          "Unexpected token: EOF (value: '')", "", "Total issues found: 1 (1 reported)"].map
            String.toList := by
  let o : LintOptions := { command := some "F(" }
  let sources : List Source := [⟨"<command>", "F("⟩]
  have hpath : hasNull ".ggb-lint.toml" = false := by decide
  have hreads : Reads (fun _ => .missing) o .standard sources :=
    ⟨hpath, ⟨false, rfl⟩, [], [], rfl, rfl, rfl⟩
  obtain ⟨out, messages, visible, lines, -, hlint, hmessages, hvisible, hlines, -, -, hiff⟩ :=
    (diagnostics_one_line_iff none).2 o sources
  have hparse : Script.parse "F(" = .error ⟨.unexpected .ending "", ⟨1, 3⟩, 2, 2⟩ := rfl
  have hstops : stopsAtLineEnd "F(" = false := by decide +kernel
  have hrank : rankOf o.severity ≤ Severity.rank .error := by decide +kernel
  cases hmessages with
  | cons hresult hnone =>
    cases hnone
    rw [Engine.lint, hparse] at hresult
    cases hresult
    have hall := hvisible.trans (List.filter_cons_of_pos (decide_eq_true hrank))
    rw [hall] at hiff hlines
    have hread := hiff.2 ⟨List.forall_mem_singleton.2 (by decide +kernel),
      List.forall_mem_singleton.2 hstops⟩
    refine ⟨o, out, rfl, hlint _ hreads (by decide), hread.trans ?_⟩
    rw [hlines]
    decide +kernel

/-- **A message of two lines.**  Behind a bracket an expression is due, and the end of the line is
quoted as it stands. -/
theorem message_with_line_end :
    ∃ message report output : String,
      message = "Parse error at line 1, column 3: Unexpected token: NEWLINE (value: '\n')" ∧
      report = "Found 1 error(s), 0 warning(s):\n\n1. ✗ [parse-error] " ++ message ++
        "\n   at line 1, column 3" ∧
      output = "ERROR: <command>:1:3 [parse-error] " ++ message ++
        "\n\nTotal issues found: 1 (1 reported)\n" ∧
      ((RuleTable.builtin.engine none).value.lint "F(\n" none).value.toOption.map
        (fun r => (r.findings.map Finding.message, r.report)) = some ([message], report) ∧
      ¬ OneLine message ∧
      -- two lines of the header, two of the finding, and one more
      (Text.lines report.toList).length = 2 + 2 + 1 ∧
      run (fun _ => .missing) ["lint", "-c", "F(\n"] = .ok ⟨1, output, ""⟩ ∧
      (Text.lines output.toList).length = 3 + 1 := by
  refine ⟨_, _, _, rfl, rfl, rfl, ?_⟩
  decide +kernel

end GeoLint
