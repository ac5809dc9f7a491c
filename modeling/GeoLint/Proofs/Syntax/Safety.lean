import GeoLint.Proofs.Syntax.Acceptance
import GeoLint.Proofs.Syntax.Simulation

/-!
# Parsing never goes wrong

The tokens of a script make up a `Feed`, so what the machine does with them is what `Script.parse`
says (`Parser.parse_eq_parse`): it gives a tree or a complaint, with its index at one of the tokens,
and it never runs into a fault (`Parser.parse_safe`).

`Parser.attempt` is for those who do not want to be interrupted by a complaint: it gives a record
with either the tree or the complaint.
-/

namespace GeoLint

open Parsing

/-! ### The tokens of a script -/

namespace Token

theorem kind_ne_ending {source : String} {t : Token} (h : t ∈ (scan source).1) :
    t.kind ≠ .ending := by
  obtain ⟨stop, -, hbefore, hrun⟩ := run_eq source.length (.ofSource source)
    (length_ofSource source).le
  rw [scan, hrun, List.mem_filter, List.mem_map] at h
  obtain ⟨⟨n, hn, rfl⟩, -⟩ := h
  exact hbefore n (List.mem_range.1 hn)

theorem length_tokenize (source : String) :
    (tokenize source).length = (scan source).1.length + 1 := by
  rw [tokenize, List.length_append, List.length_singleton]

/-- The final token is the last one and no other. -/
theorem kind_eq_ending_iff {source : String} {i : Nat} {t : Token}
    (h : (tokenize source)[i]? = some t) :
    t.kind = .ending ↔ i + 1 = (tokenize source).length := by
  have htokens : tokenize source = (scan source).1 ++ [.final (scan source).2] := rfl
  rw [htokens] at h
  rw [length_tokenize, Nat.add_right_cancel_iff]
  obtain hlt | hle := Nat.lt_or_ge i (scan source).1.length
  · rw [List.getElem?_append_left hlt] at h
    have hne := kind_ne_ending (List.mem_of_getElem? h)
    exact ⟨fun hc => absurd hc hne, fun hc => absurd hc hlt.ne⟩
  · rw [List.getElem?_append_right hle] at h
    obtain ⟨hi, hfinal⟩ := List.getElem?_eq_some_iff.1 h
    rw [List.length_singleton] at hi
    rw [List.getElem_singleton] at hfinal
    exact ⟨fun _ => by omega, fun _ => by rw [← hfinal]; rfl⟩

end Token

/-- The tokens of a script. -/
def Feed.ofSource (source : String) : Feed where
  tokens := (Token.scan source).1
  stop := (Token.scan source).2
  proper _ h := Token.kind_ne_ending h
  numerals := (numerals_tokenize source).mono (List.subset_append_left _ _)

namespace Parser

/-- **The machine does what the parser does**, whatever it was used for before. -/
theorem parse_eq_parse (source : String) (earlier : Parser) :
    parse source earlier =
      match Script.parse source with
      | .ok s => .ok s ⟨Token.tokenize source, (Token.tokenize source).length - 1⟩
      | .error e => .error (.refused e.complaint e.position)
          ⟨Token.tokenize source, if e.complaint = .tooDeep then e.offender else e.resume⟩ := by
  obtain ⟨f, htokens, hparse⟩ : ∃ f : Feed, Token.tokenize source = f.tokens ++ [.final f.stop] ∧
      Script.parse source = Parsing.script f.tokens f.stop := ⟨.ofSource source, rfl, rfl⟩
  have hstart : (⟨f.tokens ++ [.final f.stop], 0⟩ : Parser) = f.before f.tokens := by
    rw [Feed.before, Nat.sub_self]
  rw [parse, htokens, hparse, hstart, script_before]
  cases hscript : Parsing.script f.tokens f.stop with
  | ok s => simp [Feed.before]
  | error e =>
    obtain ⟨rest, hrest, -, hposition, hoffender, -⟩ := stuck_of_script hscript
    by_cases hdeep : e.complaint = .tooDeep
    · -- The index still stands where the limit was reached.
      obtain ⟨t, ht, hplace⟩ := peek_before (f := f) hrest
      simp only [hdeep, hoffender, hposition, ← hplace]
      exact bind_of_ok ht
    · simp only [if_neg hdeep]

/-- What an attempt to parse gives. -/
structure Attempt where
  /-- The script. -/
  source : String
  /-- Its tree. -/
  script : Option Script
  /-- What is wrong with it, and where. -/
  error : Option (Complaint × Position)

/-- Parse with a new parser, and keep a complaint in the answer. -/
def attempt (source : String) : Except Halt Attempt :=
  match parse source ⟨[], 0⟩ with
  | .ok s _ => .ok ⟨source, some s, none⟩
  | .error (.refused complaint position) _ => .ok ⟨source, none, some (complaint, position)⟩
  | .error halt _ => .error halt

/-- The index stays inside the tokens after a complaint. -/
theorem index_lt {source : String} {e : SyntaxError} (h : Script.parse source = .error e) :
    (if e.complaint = .tooDeep then e.offender else e.resume) <
      (Token.tokenize source).length := by
  obtain ⟨rest, -, -, -, hoffender, hresume⟩ := stuck_of_script ((parse_eq source).symm.trans h)
  have hlength := Token.length_tokenize source
  split <;> omega

/-- **Parsing is safe.**

Whatever the parser was used for before, it gives a tree or a complaint, as `Script.parse` does, and
never runs into a fault: its index stays inside the tokens, it looks behind the index only where a
token has been taken, its loops move on, and every number has a value.  The final token is the last
one only.  The text of a number is a numeral, or becomes one when the characters `eE+-` at its end
are dropped; if its exponent has no digits, its value is that of the mantissa.  An attempt to parse
gives either a tree or a complaint. -/
theorem parse_safe (source : String) (earlier : Parser) :
    ((∃ s current, parse source earlier = .ok s ⟨Token.tokenize source, current⟩ ∧
        current + 1 = (Token.tokenize source).length ∧ Script.parse source = .ok s) ∨
      ∃ e current, parse source earlier =
          .error (.refused e.complaint e.position) ⟨Token.tokenize source, current⟩ ∧
        current < (Token.tokenize source).length ∧ Script.parse source = .error e) ∧
    (∀ (i : Nat) (t : Token), (Token.tokenize source)[i]? = some t →
      (t.kind = .ending ↔ i + 1 = (Token.tokenize source).length)) ∧
    (∀ n w, (Token.tokenAt source n).kind = .number →
      (Token.tokenAt source n).text = String.ofList w →
        ((Decimal.parse? w).isSome ∨
          (Decimal.parse? (Text.dropEndWhile Token.isDangling w)).isSome) ∧
        (numberValue? (String.ofList w)).isSome ∧
        ∀ m mark s, w = m ++ mark :: s → mark = 'e' ∨ mark = 'E' → Token.IsSign s →
          numberValue? (String.ofList w) = Binary64.parse? m ∧ (Binary64.parse? m).isSome) ∧
    ∃ a, attempt source = .ok a ∧
      (a.script.isSome ∧ a.error = none ∨ a.script = none ∧ a.error.isSome) := by
  refine ⟨?_, fun i t h => Token.kind_eq_ending_iff h, fun n w hkind htext => ?_, ?_⟩
  · have hrun := parse_eq_parse source earlier
    cases hparse : Script.parse source with
    | ok s =>
      rw [hparse] at hrun
      have hlength := Token.length_tokenize source
      exact .inl ⟨s, _, hrun, by omega, rfl⟩
    | error e =>
      rw [hparse] at hrun
      exact .inr ⟨e, _, hrun, index_lt hparse, rfl⟩
  · have hlexeme := (Token.takes (Token.cursorAfter source n)).lexeme
    have hnumber := hlexeme.mem_number hkind
    change (Token.tokenAt source n).text.toList ∈ _ at hnumber
    rw [htext, String.toList_ofList] at hnumber
    obtain ⟨x, hx⟩ := Token.exists_numberValue? hnumber
    exact ⟨Token.isSome_parse?_or_dangling hnumber, by rw [hx]; rfl,
      fun m mark s => Token.numberValue?_dangling hnumber⟩
  · have hrun := parse_eq_parse source ⟨[], 0⟩
    rw [attempt]
    cases hparse : Script.parse source with
    | ok s =>
      rw [hparse] at hrun
      rw [hrun]
      exact ⟨_, rfl, .inl ⟨rfl, rfl⟩⟩
    | error e =>
      rw [hparse] at hrun
      rw [hrun]
      exact ⟨_, rfl, .inr ⟨rfl, rfl⟩⟩

end Parser

end GeoLint
