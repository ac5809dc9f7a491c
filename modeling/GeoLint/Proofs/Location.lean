import GeoLint.Proofs.Rule.Findings
import GeoLint.Proofs.Syntax.Spans
import GeoLint.Proofs.Token.Place

/-!
# True and reported places

Whatever is reported about a script is reported where a token of it stands: pieces of its tree,
syntax errors, and diagnostics.  So all of these places are as true as those of the tokens, and
`Token.tokenAt_position_iff` says which of them are true: those in front of which no string literal
has a line end behind a backslash.
-/

namespace GeoLint

open Grammar Parsing Token

/-- What the built-in rules report stands where tokens stand. -/
theorem standsAt_of_mem_reported {e : Engine} {source : String} {f : Finding}
    (h : f ∈ e.reported source) : StandsAt (tokenize source) f.span := by
  rw [Engine.reported] at h
  cases hparse : Script.parse source with
  | error error =>
    rw [hparse] at h
    obtain rfl := List.mem_singleton.1 h
    obtain ⟨t, ht, hposition⟩ := position_of_parse hparse
    refine ⟨t, ht, t, ht, ?_⟩
    rw [hposition]
    rfl
  | ok script =>
    rw [hparse] at h
    obtain ⟨n, hn, -, hspan⟩ := e.enter_mem_tour_of_mem_findings source script h
    rw [hspan]
    exact (isScript_of_parse hparse).standsAt hn

theorem exists_token_of_mem_lintCommand {config : Option Config} {command : String}
    {d : Diagnostic} (h : d ∈ lintCommand config command) :
    ∃ t ∈ tokenize command, d.line = t.position.line ∧ d.column = t.position.column := by
  rw [lintCommand_eq] at h
  split at h
  · cases h
  · obtain ⟨f, hf, rfl⟩ := List.mem_map.1 h
    obtain ⟨t, ht, u, -, hspan⟩ := standsAt_of_mem_reported hf
    refine ⟨t, ht, ?_⟩
    simp only [Diagnostic.ofFinding, hspan, and_self]

/-- **Places are true where no line end was escaped before.**

After any number of calls the scanner stands at the true line and column exactly if no string
literal up to there has a line end behind a backslash, and the same holds for the place of each
token.  All tokens, syntax errors, pieces of trees, findings and diagnostics stand where such a
token does. -/
theorem reported_place_true_iff (source : String) :
    (∀ n, (cursorAfter source n).position =
        .behind (source.toList.take (offsetAfter source n)) ↔
      ∀ k < n, escapedBreaks (lexemeAt source k) = 0) ∧
    (∀ n, (tokenAt source n).position = .behind (source.toList.take (startAt source n)) ↔
      ∀ k < n, escapedBreaks (lexemeAt source k) = 0) ∧
    (∀ t ∈ tokenize source, ∃ n, t = tokenAt source n) ∧
    (∀ e, Script.parse source = .error e → ∃ t ∈ tokenize source, t.position = e.position) ∧
    (∀ s, Script.parse source = .ok s →
      ∀ x ∈ (Node.script s).preorder, StandsAt (tokenize source) x.2.span) ∧
    (∀ config catalogue file, ∃ result,
      ((Engine.mk .builtin config catalogue).lint source file).value = .ok result ∧
        ∀ f ∈ result.findings, StandsAt (tokenize source) f.span) ∧
    (∀ config, ∀ d ∈ lintCommand config source,
      ∃ t ∈ tokenize source, d.line = t.position.line ∧ d.column = t.position.column) := by
  refine ⟨cursorAfter_position_iff source, tokenAt_position_iff source,
    fun t ht => exists_tokenAt ht, fun e he => position_of_parse he, fun s hs x hx => ?_,
    fun config catalogue file => ?_, fun config d hd => exists_token_of_mem_lintCommand hd⟩
  · exact (isScript_of_parse hs).standsAt (Node.mem_entered hx)
  · exact ⟨_, Engine.lint_builtin rfl source file, fun f hf => standsAt_of_mem_reported hf⟩

/-- A string literal with an escaped line end in it: the name behind it stands on the second line,
at the fourth character, but is reported on the first. -/
theorem reported_place_not_true :
    (tokenAt "\"a\\\nb\" x" 1).position = ⟨1, 8⟩ ∧
      (tokenAt "\"a\\\nb\" x" 1).position ≠
        .behind ("\"a\\\nb\" x".toList.take (startAt "\"a\\\nb\" x" 1)) := by
  decide +kernel

end GeoLint
