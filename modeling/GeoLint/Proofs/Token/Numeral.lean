import GeoLint.Proofs.Token.Pattern
import GeoLint.Syntax.Parser

/-!
# Numbers of scripts have values

The numbers of a script are more than the decimal numerals: an exponent need not have digits.
`parse?_number` reads a number part by part if its exponent has digits or is not there at all; the
text of any other number becomes one of these when the characters `eE+-` at its end are dropped
(`dropEndWhile_number`).  So every number has a value (`exists_numberValue?`), and where an exponent
has no digits it is the value of what stands in front of the exponent (`numberValue?_dangling`).
-/

namespace GeoLint

namespace Token

open Decimal (isDigit)

theorem splitSign_number {m ds : List Char} (hm : IsMinus m) (hds : ds ≠ [] ∧ IsDigits ds)
    (rest : List Char) :
    Decimal.splitSign (m ++ (ds ++ rest)) = (decide (m = ['-']), ds ++ rest) := by
  obtain rfl | rfl := hm
  · obtain ⟨d, ds, rfl⟩ := List.exists_cons_of_ne_nil hds.1
    have hd : isDigit d = true := hds.2 d List.mem_cons_self
    rw [List.nil_append, List.cons_append]
    unfold Decimal.splitSign
    split
    · rename_i heq
      obtain ⟨rfl, -⟩ := List.cons.inj heq
      exact absurd hd (by decide)
    · rename_i heq
      obtain ⟨rfl, -⟩ := List.cons.inj heq
      exact absurd hd (by decide)
    · simp
  · simp [Decimal.splitSign]

/-- The digits at the start of a text end where no digit stands. -/
theorem span_digits {ds rest : List Char} (hds : IsDigits ds) (hrest : digits rest = []) :
    (ds ++ rest).takeWhile isDigit = ds ∧ (ds ++ rest).dropWhile isDigit = rest := by
  have hsplit := List.takeWhile_append_dropWhile (p := isDigit) (l := rest)
  rw [show rest.takeWhile isDigit = [] from hrest, List.nil_append] at hsplit
  constructor
  · rw [List.takeWhile_append_of_pos hds, show rest.takeWhile isDigit = [] from hrest,
      List.append_nil]
  · rw [List.dropWhile_append_of_pos hds, hsplit]

theorem digits_tail {f e : List Char} (hf : IsFraction f) (he : IsExponent e) :
    digits (f ++ e) = [] := by
  by_cases hne : f ++ e = []
  · rw [hne]
    rfl
  · simpa using digits_fraction hf he hne []

theorem splitFraction_number {f e : List Char} (hf : IsFraction f) (he : IsExponent e) :
    Decimal.splitFraction (f ++ e) = (f.tail, e) := by
  obtain rfl | ⟨ds, rfl, -, hds⟩ := hf
  · obtain rfl | ⟨mark, s, xs, rfl, rfl | rfl, -⟩ := he <;> rfl
  · obtain ⟨htake, hdrop⟩ := span_digits hds (digits_tail (Or.inl rfl) he)
    simp only [List.nil_append] at htake hdrop
    simp [Decimal.splitFraction, htake, hdrop]

/-- A number whose exponent can be read is read part by part. -/
theorem parse?_number {m ds f e : List Char} {x : Int} (hm : IsMinus m)
    (hds : ds ≠ [] ∧ IsDigits ds) (hf : IsFraction f) (he : IsExponent e)
    (hx : Decimal.parseExponent? e = some x) :
    Decimal.parse? (m ++ (ds ++ (f ++ e))) =
      some ⟨decide (m = ['-']), Decimal.ofDigits (ds ++ f.tail), x - f.tail.length⟩ := by
  obtain ⟨htake, hdrop⟩ := span_digits hds.2 (digits_tail hf he)
  simp [Decimal.parse?, splitSign_number hm hds, htake, hdrop, splitFraction_number hf he, hds.1,
    hx]

/-- An exponent can be read if it has digits. -/
theorem parseExponent?_isSome {mark : Char} {s xs : List Char} (hmark : mark = 'e' ∨ mark = 'E')
    (hs : IsSign s) (hne : xs ≠ []) (hxs : IsDigits xs) :
    ∃ x, Decimal.parseExponent? (mark :: (s ++ xs)) = some x := by
  have hsplit : (Decimal.splitSign (s ++ xs)).2 = xs := by
    obtain rfl | rfl | rfl := hs
    · have hnone := splitSign_number (Or.inl rfl) ⟨hne, hxs⟩ []
      rw [List.append_nil] at hnone
      rw [hnone]
    · rfl
    · rfl
  have hall : xs.all isDigit = true := List.all_eq_true.2 hxs
  have hmark : (mark = 'e' || mark = 'E') = true := by simpa using hmark
  simp [Decimal.parseExponent?, hmark, hsplit, hne, hall]

/-- The characters that may end a number without belonging to its value. -/
def isDangling (c : Char) : Bool := c = 'e' || c = 'E' || c = '+' || c = '-'

/-- Without its dangling exponent a number ends in a digit. -/
theorem dropEndWhile_number {m ds f : List Char} {mark : Char} {s : List Char}
    (hds : ds ≠ [] ∧ IsDigits ds) (hf : IsFraction f) (hmark : mark = 'e' ∨ mark = 'E')
    (hs : IsSign s) :
    Text.dropEndWhile isDangling (m ++ (ds ++ (f ++ mark :: s))) = m ++ (ds ++ f) := by
  have hlast : ∃ u d, m ++ (ds ++ f) = u ++ [d] ∧ isDigit d = true := by
    obtain rfl | ⟨xs, rfl, hne, hxs⟩ := hf
    · refine ⟨m ++ ds.dropLast, ds.getLast hds.1, ?_, hds.2 _ (List.getLast_mem hds.1)⟩
      rw [List.append_assoc, List.dropLast_append_getLast, List.append_nil]
    · refine ⟨m ++ (ds ++ '.' :: xs.dropLast), xs.getLast hne, ?_, hxs _ (List.getLast_mem hne)⟩
      simp [List.dropLast_append_getLast]
  have hdangling : ∀ c ∈ (mark :: s).reverse, isDangling c = true := by
    obtain rfl | rfl := hmark <;> obtain rfl | rfl | rfl := hs <;> simp [isDangling]
  obtain ⟨u, d, hu, hd⟩ := hlast
  have hstop : isDangling d = false := by
    by_contra hc
    simp only [isDangling, Bool.not_eq_false, Bool.or_eq_true, decide_eq_true_eq] at hc
    rcases hc with ((rfl | rfl) | rfl) | rfl <;> exact absurd hd (by decide)
  have hsplit : m ++ (ds ++ (f ++ mark :: s)) = (m ++ (ds ++ f)) ++ mark :: s := by simp
  rw [hsplit, hu, Text.dropEndWhile, List.reverse_append, List.dropWhile_append_of_pos hdangling,
    List.reverse_append, List.reverse_singleton, List.singleton_append,
    List.dropWhile_cons_of_neg (by simp [hstop])]
  simp

theorem numberValue?_ofList (w : List Char) : Parsing.numberValue? (String.ofList w) =
    (Binary64.parse? w <|> Binary64.parse? (Text.dropEndWhile isDangling w)) := by
  rw [Parsing.numberValue?, String.toList_ofList]
  rfl

/-- **Every number has a value**: its text is a numeral, or becomes one when a dangling exponent is
dropped. -/
theorem exists_numberValue? {w : List Char} (h : w ∈ Pattern.number.matches') :
    ∃ x, Parsing.numberValue? (String.ofList w) = some x := by
  obtain ⟨m, ds, f, e, rfl, hm, hds, hf, he⟩ := (mem_number_iff w).1 h
  have hread : ∀ e x, IsExponent e → Decimal.parseExponent? e = some x →
      ∃ y, Binary64.parse? (m ++ (ds ++ (f ++ e))) = some y := by
    intro e x he hx
    exact ⟨_, by rw [Binary64.parse?, parse?_number hm hds hf he hx, Option.map_some]⟩
  have hbare := hread [] 0 (Or.inl rfl) rfl
  rw [numberValue?_ofList]
  obtain rfl | ⟨mark, s, xs, rfl, hmark, hs, hxs⟩ := he
  · obtain ⟨y, hy⟩ := hbare
    exact ⟨y, by rw [hy]; rfl⟩
  · by_cases hne : xs = []
    · -- the exponent dangles: if the text itself is refused, the mantissa is read
      rw [hne, List.append_nil, dropEndWhile_number hds hf hmark hs]
      rw [List.append_nil] at hbare
      obtain ⟨y, hy⟩ := hbare
      rw [hy]
      cases Binary64.parse? (m ++ (ds ++ (f ++ mark :: s))) with
      | none => exact ⟨y, rfl⟩
      | some z => exact ⟨z, rfl⟩
    · obtain ⟨x, hx⟩ := parseExponent?_isSome hmark hs hne hxs
      obtain ⟨y, hy⟩ := hread _ x (Or.inr ⟨mark, s, xs, rfl, hmark, hs, hxs⟩) hx
      exact ⟨y, by rw [hy]; rfl⟩

/-- So the text of a number is a numeral, or becomes one. -/
theorem isSome_parse?_or_dangling {w : List Char} (h : w ∈ Pattern.number.matches') :
    (Decimal.parse? w).isSome ∨ (Decimal.parse? (Text.dropEndWhile isDangling w)).isSome := by
  obtain ⟨x, hx⟩ := exists_numberValue? h
  rw [numberValue?_ofList, Binary64.parse?, Binary64.parse?] at hx
  cases hnumeral : Decimal.parse? w with
  | some d => exact .inl rfl
  | none =>
    rw [hnumeral] at hx
    cases hmantissa : Decimal.parse? (Text.dropEndWhile isDangling w) with
    | some d => exact .inr rfl
    | none =>
      rw [hmantissa] at hx
      cases hx

/-! ### Exponents without digits -/

/-- A number whose exponent has no digits is no numeral. -/
theorem parse?_dangling {m ds f s : List Char} {mark : Char} (hm : IsMinus m)
    (hds : ds ≠ [] ∧ IsDigits ds) (hf : IsFraction f) (hmark : mark = 'e' ∨ mark = 'E')
    (hs : IsSign s) : Decimal.parse? (m ++ (ds ++ (f ++ mark :: s))) = none := by
  have he : IsExponent (mark :: s) :=
    .inr ⟨mark, s, [], by rw [List.append_nil], hmark, hs, by simp [IsDigits]⟩
  have hx : Decimal.parseExponent? (mark :: s) = none := by
    obtain rfl | rfl := hmark <;> obtain rfl | rfl | rfl := hs <;> rfl
  obtain ⟨htake, hdrop⟩ := span_digits hds.2 (digits_tail hf he)
  simp [Decimal.parse?, splitSign_number hm hds, htake, hdrop, splitFraction_number hf he, hds.1,
    hx]

/-- The mark of an exponent stands in a number only once. -/
theorem eq_of_append_mark {p q m s : List Char} {mark mark' : Char}
    (h : p ++ mark :: q = m ++ mark' :: s) (hp : mark' ∉ p) (hq : mark' ∉ q) :
    p = m ∧ mark = mark' ∧ q = s := by
  obtain ⟨a, rfl, ha⟩ | ⟨a, rfl, ha⟩ := List.append_eq_append_iff.1 h
  · cases a with
    | nil =>
      obtain ⟨rfl, rfl⟩ := List.cons.inj ha
      exact ⟨(List.append_nil _).symm, rfl, rfl⟩
    | cons c a =>
      obtain ⟨-, rfl⟩ := List.cons.inj ha
      exact absurd (by simp) hq
  · cases a with
    | nil =>
      obtain ⟨rfl, rfl⟩ := List.cons.inj ha
      exact ⟨List.append_nil _, rfl, rfl⟩
    | cons c a =>
      obtain ⟨rfl, -⟩ := List.cons.inj ha
      exact absurd (by simp) hp

/-- **The value of a number whose exponent has no digits** is that of what stands in front of the
exponent. -/
theorem numberValue?_dangling {w m s : List Char} {mark : Char} (h : w ∈ Pattern.number.matches')
    (hw : w = m ++ mark :: s) (hmark : mark = 'e' ∨ mark = 'E') (hs : IsSign s) :
    Parsing.numberValue? (String.ofList w) = Binary64.parse? m ∧ (Binary64.parse? m).isSome := by
  obtain ⟨m', ds, f, e, rfl, hm, hds, hf, he⟩ := (mem_number_iff w).1 h
  -- Neither digits nor signs nor points are marks of an exponent.
  have hdigits : ∀ xs, IsDigits xs → mark ∉ xs := by
    intro xs hxs hmem
    have hdigit := hxs mark hmem
    obtain rfl | rfl := hmark <;> exact absurd hdigit (by decide)
  have hsign : ∀ xs, IsSign xs → mark ∉ xs := by
    intro xs hxs hmem
    obtain rfl | rfl := hmark <;> obtain rfl | rfl | rfl := hxs <;> simp at hmem
  have hfront : mark ∉ m' ++ (ds ++ f) := by
    have hminus : mark ∉ m' := hsign m' (by obtain rfl | rfl := hm <;> simp [IsSign])
    have hfraction : mark ∉ f := by
      obtain rfl | ⟨xs, rfl, -, hxs⟩ := hf
      · simp
      · have hpoint : mark ≠ '.' := by obtain rfl | rfl := hmark <;> decide
        simp [hpoint, hdigits xs hxs]
    simp [hminus, hdigits ds hds.2, hfraction]
  obtain rfl | ⟨mark', s', xs, rfl, hmark', hs', hxs⟩ := he
  · refine absurd ?_ hfront
    rw [← List.append_nil f, hw]
    simp
  · have hback : mark ∉ s' ++ xs := by simp [hsign s' hs', hdigits xs hxs]
    obtain ⟨rfl, rfl, rfl⟩ := eq_of_append_mark (p := m' ++ (ds ++ f)) (by simpa using hw)
      hfront hback
    -- What follows the mark is a sign, so it has no digits.
    have hempty : xs = [] := by
      cases xs with
      | nil => rfl
      | cons x xs =>
        have hdigit : isDigit x = true := hxs x List.mem_cons_self
        have hmem : x ∈ s' ++ x :: xs := by simp
        obtain h | h | h := hs <;> rw [h] at hmem <;> simp at hmem <;> subst hmem <;>
          exact absurd hdigit (by decide)
    subst hempty
    rw [List.append_nil] at hs hw ⊢
    have hbare := parse?_number hm hds hf (.inl rfl) (x := 0) rfl
    rw [List.append_nil] at hbare
    rw [numberValue?_ofList, dropEndWhile_number hds hf hmark hs, Binary64.parse?,
      parse?_dangling hm hds hf hmark hs, Binary64.parse?, hbare]
    exact ⟨rfl, rfl⟩

end Token

end GeoLint
