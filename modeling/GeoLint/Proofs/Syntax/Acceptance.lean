import GeoLint.Proofs.Syntax.Completeness
import GeoLint.Proofs.Token.Numeral
import GeoLint.Proofs.Token.Tiling

/-!
# The parser and the grammar agree

A script whose expressions are not nested beyond the limit has a tree exactly if the grammar
derives one from its tokens, and it is that tree: `parse_eq_ok_iff_isScript`.

The grammar knows number tokens by their kind.  That the parser never refuses one for its text is
a fact about the scanner: every number token spells a number (`numerals_tokenize`).
-/

namespace GeoLint

open Grammar Parsing

theorem numerals_tokenize (source : String) : Numerals (Token.tokenize source) := by
  intro t ht hkind
  obtain ⟨n, rfl⟩ := Token.exists_tokenAt ht
  have hlexeme := (Token.takes (Token.cursorAfter source n)).lexeme
  have hvalue := Token.exists_numberValue? (hlexeme.mem_number hkind)
  rwa [String.ofList_toList] at hvalue

/-- **The parser accepts the grammar and builds the tree of the derivation.**

Unless the parser gives up on the depth of a script, it finds the tree `s` exactly if the grammar
derives `s` from the tokens of the script, each piece of it standing where its tokens do.  There
every expression can be assigned, and the arguments of a command and the elements of a list never
end in a comma. -/
theorem parse_eq_ok_iff_isScript (source : String)
    (hdepth : ∀ e, Script.parse source = .error e → e.complaint ≠ .tooDeep) :
    (∀ s, Script.parse source = .ok s ↔ IsScript (Token.tokenize source) s) ∧
      (∀ target q ts e, target.kind = .identifier → q.kind = .equals →
        Derives ts (.expression e) → ∃ s, IsStatement (target :: q :: ts) s) ∧
      ∀ ts k es, k.kind = .comma → ¬ Derives (ts ++ [k]) (.arguments es) := by
  refine ⟨fun s => ⟨fun h => ?_, fun h => ?_⟩, fun target q ts e htarget hq h => ?_,
    fun ts k es hk h => ?_⟩
  · exact isScript_of_parse h
  · have hnumerals : Numerals (Token.scan source).1 :=
      (numerals_tokenize source).mono (List.subset_append_left _ _)
    obtain hok | ⟨e, he, hdeep⟩ := script_of_isScript h hnumerals
    · rw [parse_eq]
      exact hok
    · exact absurd hdeep (hdepth e he)
  · exact h.exists_isStatement htarget hq
  · exact h.getLast?_ne_comma List.getLast?_concat hk

/-- Calls, lists, tuples and groups, with and without targets and separators. -/
theorem isScript_four_statements :
    ∃ source s, source = "P = Point((1, 2,), \x7ba, true\x7d)\nA = (B(x)) Q=();Sum(P,'s')" ∧
      (∀ e, Script.parse source = .error e → e.complaint ≠ .tooDeep) ∧
      IsScript (Token.tokenize source) s ∧
      s.body.map (·.command.text) = ["Point", "A", "Q", "Sum"] := by
  obtain ⟨source, hsource⟩ : ∃ source,
      source = "P = Point((1, 2,), \x7ba, true\x7d)\nA = (B(x)) Q=();Sum(P,'s')" := ⟨_, rfl⟩
  have hnames : (Script.parse source).toOption.map (fun s => s.body.map (·.command.text)) =
      some ["Point", "A", "Q", "Sum"] := by
    rw [hsource]
    decide +kernel
  cases hparse : Script.parse source with
  | error e =>
    rw [hparse] at hnames
    cases hnames
  | ok s =>
    rw [hparse] at hnames
    have hdepth : ∀ e, Script.parse source = .error e → e.complaint ≠ .tooDeep := by
      intro e he
      rw [hparse] at he
      cases he
    exact ⟨source, s, hsource, hparse ▸ hdepth,
      ((parse_eq_ok_iff_isScript source hdepth).1 s).1 hparse, Option.some.inj hnames⟩

end GeoLint
