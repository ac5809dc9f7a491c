import GeoLint.Decimal.Binary64
import GeoLint.Decimal.Whole
import GeoLint.Proofs.Text.Pieces
import Mathlib.Algebra.Order.Field.Power
import Mathlib.Algebra.Order.Field.Rat
import Mathlib.Tactic.NormNum
import Mathlib.Tactic.Positivity

/-!
# What stands for a whole number

Besides whole numbers themselves there are two things that stand for one.  A number of double
precision does if it is equal to it (`Binary64.toInt?_eq_some_iff`, where `Binary64.value?` is the
number in the usual sense).  A text does if it is a `Decimal.Numeral`: digits with a sign or none,
with leading zeros, with single underscores between digits and with zeros behind a point, and with
white space around all this (`Decimal.readWhole_write`).
-/

namespace GeoLint

/-! ### Numbers of double precision -/

namespace Binary64

/-- The number that `x` is, if it is finite. -/
def value? : Binary64 → Option ℚ
  | .finite negative m q => some ((if negative then -1 else 1) * (m * 2 ^ q))
  | _ => none

/-- A mantissa with a power of two is a natural number if it can be divided by what the power takes
away. -/
theorem mul_two_zpow_eq_iff (m n : Nat) (q : Int) :
    (m : ℚ) * 2 ^ q = n ↔
      m % twoTo (-q).toNat = 0 ∧ m / twoTo (-q).toNat * twoTo q.toNat = n := by
  obtain ⟨k, rfl | rfl⟩ := q.eq_nat_or_neg
  · simp only [twoTo, Int.toNat_neg_natCast, Int.toNat_natCast, Nat.pow_eq, pow_zero, Nat.mod_one,
      Nat.div_one, true_and, zpow_natCast]
    exact_mod_cast Iff.rfl
  · have hpos : (0 : ℚ) < 2 ^ k := by positivity
    simp only [twoTo, neg_neg, Int.toNat_neg_natCast, Int.toNat_natCast, Nat.pow_eq, pow_zero,
      mul_one, zpow_neg, zpow_natCast]
    rw [← div_eq_mul_inv, div_eq_iff hpos.ne']
    constructor
    · intro h
      have hm : m = n * 2 ^ k := by exact_mod_cast h
      rw [hm, Nat.mul_mod_left, Nat.mul_div_cancel _ (by positivity)]
      exact ⟨rfl, rfl⟩
    · rintro ⟨hmod, rfl⟩
      exact_mod_cast (Nat.div_mul_cancel (Nat.dvd_of_mod_eq_zero hmod)).symm

/-- It is no whole number below zero. -/
theorem mul_two_zpow_eq_intCast_iff (m : Nat) (n q : Int) :
    (m : ℚ) * 2 ^ q = n ↔ m % twoTo (-q).toNat = 0 ∧
      ((m / twoTo (-q).toNat * twoTo q.toNat : Nat) : Int) = n := by
  cases n with
  | ofNat n => rw [Int.ofNat_eq_natCast, Int.cast_natCast, mul_two_zpow_eq_iff, Int.natCast_inj]
  | negSucc n =>
    have hnonneg : (0 : ℚ) ≤ m * 2 ^ q := by positivity
    have hneg : ((Int.negSucc n : Int) : ℚ) < 0 := by exact_mod_cast Int.negSucc_lt_zero n
    constructor
    · intro h
      exact absurd (h ▸ hnonneg) (not_le.2 hneg)
    · rintro ⟨-, h⟩
      omega

/-- **The whole number equal to `x`** is what `x` is in the usual sense. -/
theorem toInt?_eq_some_iff {x : Binary64} {n : Int} :
    x.toInt? = some n ↔ x.value? = some (n : ℚ) := by
  cases x with
  | infinite | nan => simp [toInt?, value?]
  | finite negative m q =>
    simp only [toInt?, value?, Option.ite_none_right_eq_some, Option.some.injEq]
    cases negative with
    | false => simp only [Bool.false_eq_true, if_false, one_mul, mul_two_zpow_eq_intCast_iff]
    | true =>
      have hminus : -1 * ((m : ℚ) * 2 ^ q) = n ↔ (m : ℚ) * 2 ^ q = (-n : Int) := by
        rw [Int.cast_neg, neg_one_mul, neg_eq_iff_eq_neg]
      simp only [if_true, hminus, mul_two_zpow_eq_intCast_iff, neg_eq_iff_eq_neg]

end Binary64

/-! ### Numerals -/

namespace Decimal

/-- A text in which underscores stand alone and between other characters. -/
inductive Spaced : List Char → Prop
  /-- A character. -/
  | single {c : Char} (h : c ≠ '_') : Spaced [c]
  /-- A character in front. -/
  | cons {c : Char} {w : List Char} (h : c ≠ '_') (hw : Spaced w) : Spaced (c :: w)
  /-- A character and an underscore in front. -/
  | underscore {c : Char} {w : List Char} (h : c ≠ '_') (hw : Spaced w) : Spaced (c :: '_' :: w)

/-- The text without underscores. -/
def figures (w : List Char) : List Char := w.filter (· ≠ '_')

/-- Digits, with underscores between them. -/
structure Digits (w : List Char) : Prop where
  /-- Underscores stand alone and between digits. -/
  spaced : Spaced w
  /-- All else are digits. -/
  isDigit : ∀ c ∈ w, c ≠ '_' → isDigit c = true

/-- A sign in front of a numeral. -/
inductive Sign where
  /-- No sign. -/
  | none
  /-- A plus. -/
  | plus
  /-- A minus. -/
  | minus

/-- There is a minus. -/
def Sign.negative : Sign → Bool
  | .minus => true
  | _ => false

/-- The sign as it is written. -/
def Sign.chars : Sign → List Char
  | .none => []
  | .plus => ['+']
  | .minus => ['-']

/-- A whole number as a text may spell it. -/
structure Numeral where
  /-- Its sign. -/
  sign : Sign
  /-- Its digits, with underscores between them. -/
  digits : List Char
  /-- The number of zeros behind a point; without any there is no point. -/
  zeros : Nat
  /-- There is nothing else. -/
  isDigits : Digits digits

namespace Numeral

/-- The point and the zeros behind it. -/
def fraction (m : Numeral) : List Char :=
  if m.zeros = 0 then [] else '.' :: List.replicate m.zeros '0'

/-- The numeral as it is written. -/
def write (m : Numeral) : List Char :=
  m.sign.chars ++ (m.digits ++ m.fraction)

/-- The number that the numeral spells. -/
def value (m : Numeral) : Int :=
  if m.sign.negative then -(ofDigits (figures m.digits) : Int) else ofDigits (figures m.digits)

end Numeral

/-! ### Digits -/

theorem toNat_of_isDigit {c : Char} (h : isDigit c = true) : 48 ≤ c.toNat ∧ c.toNat ≤ 57 := by
  simpa [isDigit, Char.le_def, UInt32.le_iff_toNat_le] using h

theorem ofDigits_zero_cons (ds : List Char) : ofDigits ('0' :: ds) = ofDigits ds := rfl

/-- Leading zeros do not count. -/
theorem ofDigits_dropWhile (ds : List Char) : ofDigits (ds.dropWhile (· = '0')) = ofDigits ds := by
  induction ds with
  | nil => rfl
  | cons d ds ih =>
    by_cases hd : d = '0'
    · rw [List.dropWhile_cons_of_pos (by simpa using hd), ih, hd, ofDigits_zero_cons]
    · rw [List.dropWhile_cons_of_neg (by simpa using hd)]

/-! ### Underscores -/

namespace Spaced

variable {w : List Char}

theorem exists_cons (h : Spaced w) : ∃ c rest, w = c :: rest ∧ c ≠ '_' := by
  cases h with
  | single h | cons h | underscore h => exact ⟨_, _, rfl, h⟩

theorem ne_nil (h : Spaced w) : w ≠ [] := by
  obtain ⟨c, rest, rfl, -⟩ := h.exists_cons
  simp

/-- No piece between underscores is empty. -/
theorem ne_nil_of_mem_pieces (h : Spaced w) : ∀ v ∈ Text.pieces (· = '_') w, v ≠ [] := by
  induction h with
  | single hc => simp [Text.pieces, hc]
  | @cons c w hc _ ih =>
    obtain ⟨v, vs, hvs⟩ := List.exists_cons_of_ne_nil (Text.pieces_ne_nil (· = '_') w)
    simp_all [Text.pieces]
  | underscore hc _ ih =>
    simp_all [Text.pieces]

/-- **Underscores that stand alone and inside are dropped.** -/
theorem dropUnderscores_eq (h : Spaced w) : dropUnderscores w = figures w := by
  have hfull : Text.fullPieces (· = '_') w = Text.pieces (· = '_') w :=
    List.filter_eq_self.2 fun v hv => by simpa using h.ne_nil_of_mem_pieces v hv
  have hall : ((Text.pieces (· = '_') w).all fun v => !v.isEmpty) = true :=
    List.all_eq_true.2 fun v hv => by simpa using h.ne_nil_of_mem_pieces v hv
  have hflat := Text.flatten_fullPieces (· = '_') w
  rw [hfull] at hflat
  rw [dropUnderscores, if_pos hall, hflat, figures]
  simp

end Spaced

/-! ### Leading zeros -/

/-- What may stand before the first digit that counts. -/
def isLeading (c : Char) : Bool := c = '0' || c = '_'

/-- The text from the first digit that counts on; a zero if there is none. -/
def significant (w : List Char) : List Char :=
  if w.dropWhile isLeading = [] then ['0'] else w.dropWhile isLeading

theorem figures_dropWhile (w : List Char) :
    figures (w.dropWhile isLeading) = (figures w).dropWhile (· = '0') := by
  induction w with
  | nil => rfl
  | cons c w ih =>
    by_cases hunder : c = '_'
    · simp_all [figures, isLeading]
    · by_cases hzero : c = '0'
      · simp_all [figures, isLeading]
      · simp [figures, isLeading, hunder, hzero]

/-- Behind what may lead it the text goes on with a digit that counts, or it ends there with a
zero. -/
def Leads (w : List Char) : Prop :=
  w.dropWhile isLeading = [] ∧ w.getLast? = some '0' ∨
    ∃ d v, w.dropWhile isLeading = d :: v ∧ d ≠ '0' ∧ isDigit d = true ∧ Spaced (d :: v)

theorem Leads.cons {w : List Char} {c : Char} (h : Leads w) (hne : w ≠ [])
    (hc : isLeading c = true) : Leads (c :: w) := by
  rwa [Leads, List.dropWhile_cons_of_pos hc, List.getLast?_cons_of_ne_nil hne]

theorem leads_of_ne_zero {w : List Char} {d : Char} (h : Spaced (d :: w)) (hzero : d ≠ '0')
    (hdigit : isDigit d = true) : Leads (d :: w) := by
  have hunder : d ≠ '_' := by
    obtain ⟨_, _, heq, hunder⟩ := h.exists_cons
    rwa [(List.cons.inj heq).1]
  exact .inr ⟨d, w, List.dropWhile_cons_of_neg (by simp [isLeading, hzero, hunder]), hzero, hdigit,
    h⟩

/-- Digits with underscores between them are led by zeros and underscores, or by nothing. -/
theorem Digits.leads {w : List Char} (h : Digits w) : Leads w := by
  obtain ⟨hspaced, hdigits⟩ := h
  induction hspaced with
  | @single c hc =>
    by_cases hzero : c = '0'
    · exact .inl (by simp [hzero, isLeading])
    · exact leads_of_ne_zero (.single hc) hzero (hdigits c (by simp) hc)
  | @cons c w hc hw ih =>
    by_cases hzero : c = '0'
    · exact (ih fun d hd => hdigits d (by simp [hd])).cons hw.ne_nil (by simp [isLeading, hzero])
    · exact leads_of_ne_zero (.cons hc hw) hzero (hdigits c (by simp) hc)
  | @underscore c w hc hw ih =>
    by_cases hzero : c = '0'
    · have hbehind := (ih fun d hd => hdigits d (by simp [hd])).cons hw.ne_nil
        (c := '_') (by simp [isLeading])
      exact hbehind.cons (by simp) (by simp [isLeading, hzero])
    · exact leads_of_ne_zero (.underscore hc hw) hzero (hdigits c (by simp) hc)

/-- Where a text stops satisfying `p`, if what follows it does not satisfy `p` at once. -/
theorem takeWhile_append_of_takeWhile {p : Char → Bool} {f : List Char} (hf : f.takeWhile p = [])
    (w : List Char) : (w ++ f).takeWhile p = w.takeWhile p := by
  induction w with
  | nil => exact hf
  | cons c w ih =>
    by_cases hc : p c = true
    · rw [List.cons_append, List.takeWhile_cons_of_pos hc, List.takeWhile_cons_of_pos hc, ih]
    · rw [List.cons_append, List.takeWhile_cons_of_neg hc, List.takeWhile_cons_of_neg hc]

theorem drop_append_takeWhile (p : Char → Bool) (w f : List Char) :
    (w ++ f).drop (w.takeWhile p).length = w.dropWhile p ++ f := by
  have hsplit : w ++ f = w.takeWhile p ++ (w.dropWhile p ++ f) := by
    rw [← List.append_assoc, List.takeWhile_append_dropWhile]
  rw [hsplit, List.drop_left]

/-- **Leading zeros go**, with the underscores among them. -/
theorem skipZeros?_append {w f : List Char} (h : Digits w) (hf : f = [] ∨ ∃ r, f = '.' :: r) :
    skipZeros? (w ++ f) = some (significant w ++ f) := by
  have hleads := h.leads
  obtain ⟨c, rest, rfl, hc⟩ := h.spaced.exists_cons
  by_cases hzero : c = '0'
  · subst hzero
    have hpoint : f.takeWhile isLeading = [] := by
      obtain rfl | ⟨r, rfl⟩ := hf
      · rfl
      · rfl
    have hzeros : (rest ++ f).takeWhile (fun c => c = '0' || c = '_') =
        rest.takeWhile isLeading :=
      takeWhile_append_of_takeWhile hpoint rest
    rw [List.cons_append, significant, List.dropWhile_cons_of_pos rfl]
    simp only [skipZeros?, hzeros, drop_append_takeWhile]
    rw [Leads, List.dropWhile_cons_of_pos rfl] at hleads
    obtain ⟨hnone, hlast⟩ | ⟨d, v, hrest, -, hdigit, -⟩ := hleads
    · have hall : rest.takeWhile isLeading = rest := by
        rw [List.takeWhile_eq_self_iff]
        exact List.dropWhile_eq_nil_iff.1 hnone
      have hend : rest.getLastD '0' = '0' := by
        rw [List.getLast?_cons] at hlast
        rw [List.getLastD_eq_getLast?]
        exact Option.some.inj hlast
      rw [hnone, hall, hend, if_pos rfl]
      obtain rfl | ⟨r, rfl⟩ := hf
      · rfl
      · rfl
    · have hpoint : d ≠ '.' := by
        rintro rfl
        cases hdigit
      rw [hrest, if_neg (by simp)]
      simp [hdigit]
  · have hdigit := h.isDigit c (by simp) hc
    have hlead : isLeading c = false := by simp [isLeading, hzero, hc]
    rw [significant, List.dropWhile_cons_of_neg (by simp [hlead]), if_neg (by simp)]
    simp [skipZeros?, hdigit]

/-! ### Strict numerals -/

/-- A fraction of zeros goes. -/
theorem dropZeroFraction_append {w : List Char} (h : '.' ∉ w) (m : Numeral) :
    dropZeroFraction (w ++ m.fraction) = w := by
  have hpoint : m.fraction.takeWhile (· ≠ '.') = [] := by
    rw [Numeral.fraction]
    split <;> rfl
  have hwhole : (w ++ m.fraction).takeWhile (· ≠ '.') = w := by
    rw [takeWhile_append_of_takeWhile hpoint, List.takeWhile_eq_self_iff]
    intro c hc
    simpa using ne_of_mem_of_not_mem hc h
  simp only [dropZeroFraction, hwhole]
  by_cases hzeros : m.zeros = 0
  · simp [Numeral.fraction, hzeros]
  · simp [Numeral.fraction, hzeros]

/-- **A strict numeral** is read as the number that its digits spell. -/
theorem readStrict_digits {ds : List Char} (hne : ds ≠ []) (hdigits : ∀ c ∈ ds, isDigit c = true)
    (hzero : ds.head? = some '0' → ds.length ≤ 1) (hlength : ds.length ≤ maxLength)
    (negative : Bool) :
    readStrict ((if negative then ['-'] else []) ++ ds) =
      .ok (if negative then -(ofDigits ds : Int) else ofDigits ds) := by
  have htake : ds.takeWhile isDigit = ds := List.takeWhile_eq_self_iff.2 hdigits
  have hminus : ds.head? ≠ some '-' := by
    intro hhead
    have hdigit := hdigits '-' (List.mem_of_mem_head? hhead)
    cases hdigit
  have hstrict : ¬ ((ds.isEmpty || (ds.head? = some '0' && 1 < ds.length)) = true) := by
    simpa [hne] using hzero
  cases negative with
  | true =>
    simp only [readStrict, if_true, List.singleton_append, List.head?_cons, List.drop_one,
      List.tail_cons, htake]
    rw [if_neg hstrict, if_neg (by omega), if_neg (by omega)]
  | false =>
    simp only [readStrict, Bool.false_eq_true, if_false, List.nil_append, hminus, htake]
    rw [if_neg hstrict, if_neg (by omega), if_neg (by omega)]

/-- What is left of digits behind leading zeros is a strict numeral for the same number. -/
theorem readStrict_significant {w : List Char} (h : Digits w)
    (hlength : ((figures w).dropWhile (· = '0')).length ≤ maxLength) (negative : Bool) :
    readStrict ((if negative then ['-'] else []) ++ figures (significant w)) =
      .ok (if negative then -(ofDigits (figures w) : Int) else ofDigits (figures w)) := by
  rw [← ofDigits_dropWhile (figures w)]
  rw [← figures_dropWhile] at hlength ⊢
  obtain ⟨hnone, -⟩ | ⟨d, v, hrest, hzero, hdigit, -⟩ := h.leads
  · rw [significant, if_pos hnone, hnone]
    exact @readStrict_digits ['0'] (by simp) (by simp [isDigit]) (by simp)
      (by simp [maxLength]) negative
  · have hunder : d ≠ '_' := by
      rintro rfl
      cases hdigit
    have hne : w.dropWhile isLeading ≠ [] := by simp [hrest]
    rw [significant, if_neg hne]
    refine readStrict_digits ?_ ?_ ?_ hlength negative
    · simp [hrest, figures, hunder]
    · intro c hc
      obtain ⟨hmem, hc⟩ := List.mem_filter.1 hc
      exact h.isDigit c ((List.dropWhile_sublist _).subset hmem) (by simpa using hc)
    · simp [hrest, figures, hunder, hzero]

namespace Digits

variable {w : List Char}

/-- What is left of digits behind leading zeros is digits. -/
theorem significant (h : Digits w) : Digits (significant w) := by
  rw [Decimal.significant]
  obtain ⟨hnone, -⟩ | ⟨d, v, hrest, -, -, hspaced⟩ := h.leads
  · rw [if_pos hnone]
    exact ⟨.single (by decide), by simp [Decimal.isDigit]⟩
  · have hne : w.dropWhile isLeading ≠ [] := by simp [hrest]
    rw [if_neg hne]
    exact ⟨hrest ▸ hspaced, fun c hc => h.isDigit c ((List.dropWhile_sublist _).subset hc)⟩

theorem exists_cons (h : Digits w) : ∃ d v, w = d :: v ∧ Decimal.isDigit d = true := by
  obtain ⟨d, v, rfl, hd⟩ := h.spaced.exists_cons
  exact ⟨d, v, rfl, h.isDigit d (by simp) hd⟩

theorem toNat_mem (h : Digits w) {c : Char} (hc : c ∈ w) : 48 ≤ c.toNat ∧ c.toNat ≤ 95 := by
  by_cases hunder : c = '_'
  · subst hunder
    decide
  · have hdigit := toNat_of_isDigit (h.isDigit c hc hunder)
    omega

end Digits

/-! ### Reading a numeral -/

namespace Numeral

variable (m : Numeral)

theorem fraction_cases : m.fraction = [] ∨ ∃ r, m.fraction = '.' :: r := by
  rw [fraction]
  split
  · exact .inl rfl
  · exact .inr ⟨_, rfl⟩

/-- A plus and leading zeros go. -/
theorem dropZeros?_write :
    (dropPlus? m.write).bind dropZeros? =
      some ((if m.sign.negative then ['-'] else []) ++ (significant m.digits ++ m.fraction)) := by
  have hskip := skipZeros?_append m.isDigits m.fraction_cases
  obtain ⟨d, v, hdigits, hd⟩ := m.isDigits.exists_cons
  obtain ⟨e, u, hleft, he⟩ := m.isDigits.significant.exists_cons
  have hsigns : d ≠ '+' ∧ d ≠ '-' ∧ e ≠ '-' := by
    refine ⟨?_, ?_, ?_⟩
    · rintro rfl
      cases hd
    · rintro rfl
      cases hd
    · rintro rfl
      cases he
  rw [hleft, hdigits, List.cons_append] at hskip
  rw [write, hleft, hdigits, List.cons_append]
  cases m.sign with
  | none => simpa [Sign.chars, Sign.negative, dropPlus?, dropZeros?, hsigns] using hskip
  | plus => simpa [Sign.chars, Sign.negative, dropPlus?, dropZeros?, hsigns] using hskip
  | minus => simp [Sign.chars, Sign.negative, dropPlus?, dropZeros?, hsigns, hskip]

/-- No character of a numeral is white space. -/
theorem isMargin_of_mem_write {c : Char} (h : c ∈ m.write) : isMargin c = false := by
  have hshows : 0x20 < c.toNat ∧ c.toNat < 0x80 := by
    rw [write, List.mem_append, List.mem_append] at h
    obtain hsign | hdigit | hzero := h
    · cases hm : m.sign <;> simp_all [Sign.chars]
    · have hplace := m.isDigits.toNat_mem hdigit
      omega
    · have hchar : c = '.' ∨ c = '0' := by
        rw [fraction] at hzero
        split at hzero
        · cases hzero
        · obtain rfl | hzero := List.mem_cons.1 hzero
          · exact .inl rfl
          · exact .inr (List.eq_of_mem_replicate hzero)
      obtain rfl | rfl := hchar <;> decide
  simp only [isMargin, Text.isBlank]
  grind

end Numeral

/-- **A numeral is read as the number it spells**, whatever white space stands around it. -/
theorem readWhole_write (m : Numeral)
    (hlength : ((figures m.digits).dropWhile (· = '0')).length ≤ maxLength)
    {lead trail : List Char} (hlead : ∀ c ∈ lead, isMargin c = true)
    (htrail : ∀ c ∈ trail, isMargin c = true) :
    readWhole (lead ++ (m.write ++ trail)) = .ok m.value := by
  have hwritten : m.write ≠ [] := by
    simp [Numeral.write, m.isDigits.spaced.ne_nil]
  have htrim : Text.trimWhile isMargin (lead ++ (m.write ++ trail)) = m.write :=
    Text.trimWhile_padded hlead hwritten
      (fun c hc => m.isMargin_of_mem_write (List.mem_of_mem_head? hc))
      (fun c hc => m.isMargin_of_mem_write (List.mem_of_getLast? hc)) htrail
  have hleft := m.isDigits.significant
  have hpoint : '.' ∉ (if m.sign.negative then ['-'] else []) ++ significant m.digits := by
    intro hmem
    obtain hmem | hmem := List.mem_append.1 hmem
    · split at hmem <;> simp at hmem
    · exact absurd (hleft.toNat_mem hmem) (by decide)
  have hspaced : Spaced ((if m.sign.negative then ['-'] else []) ++ significant m.digits) := by
    split
    · exact .cons (by decide) hleft.spaced
    · exact hleft.spaced
  have hfigures : figures ((if m.sign.negative then ['-'] else []) ++ significant m.digits) =
      (if m.sign.negative then ['-'] else []) ++ figures (significant m.digits) := by
    split <;> rfl
  rw [readWhole, htrim, m.dropZeros?_write, ← List.append_assoc]
  simp only [dropZeroFraction_append hpoint, hspaced.dropUnderscores_eq, hfigures,
    readStrict_significant m.isDigits hlength, Numeral.value]

end Decimal

end GeoLint
