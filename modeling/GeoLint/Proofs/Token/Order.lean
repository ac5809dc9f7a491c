import GeoLint.Proofs.Token.Exchange
import Mathlib.Data.Prod.Lex

/-!
# Tokens stand one behind the other

Places are ordered by line, and on one line by column.  The scanner only ever moves on in this
order, also where it counts an escaped line end as a character of its line: over every character of
a lexeme its place grows (`Position.lt_across`).  So each token of a script stands strictly behind
the one before it (`pairwise_tokenize`).
-/

namespace GeoLint

namespace Position

/-- Line before line, and on one line column before column. -/
instance : PartialOrder Position :=
  PartialOrder.lift (fun p => toLex (p.line, p.column)) fun p q h => by
    obtain ⟨hline, hcolumn⟩ := Prod.mk.inj (toLex.injective h)
    cases p
    cases q
    congr

theorem lt_iff {p q : Position} :
    p < q ↔ p.line < q.line ∨ p.line = q.line ∧ p.column < q.column :=
  Prod.Lex.toLex_lt_toLex

theorem lt_right (p : Position) {n : Nat} (h : 0 < n) : p < p.right n :=
  lt_iff.2 (.inr ⟨rfl, Nat.lt_add_of_pos_right h⟩)

theorem le_right (p : Position) (n : Nat) : p ≤ p.right n := by
  cases n with
  | zero => rw [right_zero]
  | succ n => exact (p.lt_right n.succ_pos).le

theorem lt_step (p : Position) (c : Char) : p < p.step c := by
  rw [step]
  split
  · exact lt_iff.2 (.inl p.line.lt_succ_self)
  · exact p.lt_right Nat.one_pos

theorem le_across (p : Position) (cs : List Char) : p ≤ p.across cs := by
  fun_induction across p cs with
  | case1 => exact le_rfl
  | case2 p => exact p.le_right 1
  | case3 p c cs ih => exact (p.le_right 2).trans ih
  | case4 p c cs _ _ ih => exact (p.lt_step c).le.trans ih

/-- Behind a lexeme the scanner stands further on than in front of it. -/
theorem lt_across (p : Position) {cs : List Char} (h : cs ≠ []) : p < p.across cs := by
  fun_cases across p cs with
  | case1 => exact absurd rfl h
  | case2 => exact p.lt_right Nat.one_pos
  | case3 => exact (p.lt_right Nat.two_pos).trans_le (le_across _ _)
  | case4 => exact (p.lt_step _).trans_le (le_across _ _)

end Position

namespace Token

theorem le_position_next (c : Cursor) : c.position ≤ (next c).1.position := by
  have hnext := next_at c c.position
  rw [show (⟨c.rest, c.position⟩ : Cursor) = c from rfl] at hnext
  rw [hnext]
  exact c.position.le_right _

/-- A call that takes a token ends behind the place of the token. -/
theorem position_next_lt {c : Cursor} (h : (next c).1.kind ≠ .ending) :
    (next c).1.position < (next c).2.position := by
  have hnext := next_at c c.position
  rw [show (⟨c.rest, c.position⟩ : Cursor) = c from rfl] at hnext
  have hlexeme : lexemeText c ≠ [] := (takes c).lexeme.ne_nil h
  rw [hnext]
  exact Position.lt_across _ hlexeme

/-- The tokens from a cursor on, with the final one, stand at the cursor or behind it, and each
strictly behind the one before it. -/
theorem pairwise_scanFrom (c : Cursor) :
    (∀ t ∈ (scanFrom c).1 ++ [final (scanFrom c).2], c.position ≤ t.position) ∧
      ((scanFrom c).1 ++ [final (scanFrom c).2]).Pairwise fun t u => t.position < u.position := by
  induction c using induction_next with
  | ending c hending =>
    rw [scanFrom_of_ending hending]
    refine ⟨fun t ht => ?_, List.pairwise_singleton _ _⟩
    obtain rfl := List.mem_singleton.1 ht
    exact le_position_next c
  | step c hending ih =>
    obtain ⟨hbehind, hsorted⟩ := ih
    have hnext : ∀ t ∈ (scanFrom (next c).2).1 ++ [final (scanFrom (next c).2).2],
        (next c).1.position < t.position :=
      fun t ht => (position_next_lt hending).trans_le (hbehind t ht)
    rw [scanFrom_of_ne_ending hending, List.append_assoc]
    -- The token of this call comes first, unless it is left out.
    rw [known]
    split
    · refine ⟨fun t ht => ?_, hsorted⟩
      exact (le_position_next c).trans (hnext t ht).le
    · refine ⟨fun t ht => ?_, List.pairwise_cons.2 ⟨hnext, hsorted⟩⟩
      rcases List.mem_cons.1 ht with rfl | ht
      · exact le_position_next c
      · exact (le_position_next c).trans (hnext t ht).le

/-- **Tokens stand in the order in which they come**, each strictly behind the one before. -/
theorem pairwise_tokenize (source : String) :
    (tokenize source).Pairwise fun t u => t.position < u.position := by
  have hsorted := (pairwise_scanFrom (.ofSource source)).2
  rw [← scan_eq] at hsorted
  exact hsorted

end Token

end GeoLint
