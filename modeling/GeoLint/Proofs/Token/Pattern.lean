import GeoLint.Token.Scanner
import Mathlib.Computability.RegularExpressions

/-!
# Names and numbers as patterns

The names and numbers of a script are given by two regular expressions,

    NAME    :=  [A-Za-z_] [A-Za-z0-9_]*
    NUMBER  :=  -? D+ ( . D+ )? ( [eE] [+-]? D* )?      with D for a digit

and the scanner takes the longest text that matches (`LongestMatch`).  The scanner itself works
with prefix functions, each greedy on its own; `longestMatch_name` and `longestMatch_numeral` say
that greedy parts make up the longest whole.

For numbers this is not a fact about greedy parts in general.  It holds because no part can start
with a character on which the part before it could go on: where a match stops short inside one
part, the parts behind it are empty (`length_le_length_numeral`).
-/

namespace GeoLint

namespace Token

open Decimal (isDigit)
open RegularExpression (char)

namespace Pattern

/-- One of some characters. -/
def oneOf (cs : List Char) : RegularExpression Char :=
  cs.foldr (fun c p => char c + p) 0

/-- A character between two others, both included. -/
def between (low high : Char) : RegularExpression Char :=
  oneOf ((List.range' low.toNat (high.toNat + 1 - low.toNat)).map Char.ofNat)

/-- The pattern, or nothing. -/
def optional (p : RegularExpression Char) : RegularExpression Char := 1 + p

/-- The pattern once or more often. -/
def repeated (p : RegularExpression Char) : RegularExpression Char := p * p.star

/-- `D`, that is `[0-9]`. -/
def digit : RegularExpression Char := between '0' '9'

/-- `[A-Za-z_]` -/
def letter : RegularExpression Char := between 'a' 'z' + between 'A' 'Z' + char '_'

/-- `[A-Za-z_][A-Za-z0-9_]*` -/
def name : RegularExpression Char := letter * (letter + digit).star

/-- `-?D+(\.D+)?([eE][+-]?D*)?` -/
def number : RegularExpression Char :=
  optional (char '-') * (repeated digit * (optional (char '.' * repeated digit) *
    optional ((char 'e' + char 'E') * (optional (char '+' + char '-') * digit.star))))

end Pattern

/-- `w` is the longest text at the start of `cs` that matches the pattern. -/
def LongestMatch (p : RegularExpression Char) (cs w : List Char) : Prop :=
  w ∈ p.matches' ∧ w <+: cs ∧ ∀ v ∈ p.matches', v <+: cs → v.length ≤ w.length

namespace Pattern

/-! ### Classes of characters -/

/-- The pattern matches the characters satisfying `q`, one at a time. -/
def Class (p : RegularExpression Char) (q : Char → Bool) : Prop :=
  ∀ w, w ∈ p.matches' ↔ ∃ c, q c = true ∧ w = [c]

theorem class_char (a : Char) : Class (char a) (· = a) := by
  intro w
  constructor
  · intro h
    exact ⟨a, by simp, h⟩
  · rintro ⟨c, hc, rfl⟩
    obtain rfl : c = a := by simpa using hc
    rfl

theorem Class.add {p p' : RegularExpression Char} {q q' : Char → Bool} (h : Class p q)
    (h' : Class p' q') : Class (p + p') (fun c => q c || q' c) := by
  intro w
  rw [RegularExpression.matches'_add, Language.mem_add, h, h', ← exists_or]
  simp only [Bool.or_eq_true, or_and_right]

theorem mem_oneOf (cs w : List Char) : w ∈ (oneOf cs).matches' ↔ ∃ c ∈ cs, w = [c] := by
  induction cs with
  | nil =>
    rw [oneOf, List.foldr_nil, RegularExpression.matches'_zero]
    simp
  | cons c cs ih =>
    rw [show oneOf (c :: cs) = char c + oneOf cs from rfl, RegularExpression.matches'_add,
      Language.mem_add, class_char, ih]
    simp

theorem class_between {low high : Char} (h : high.toNat < 0xD800) :
    Class (between low high) (fun c => low ≤ c && c ≤ high) := by
  intro w
  rw [between, mem_oneOf]
  simp only [List.mem_map, List.mem_range'_1, Bool.and_eq_true, decide_eq_true_eq]
  constructor
  · rintro ⟨_, ⟨n, ⟨hlow, hhigh⟩, rfl⟩, rfl⟩
    -- Below the surrogates every number is a character.
    have hvalid : n.isValidChar := Or.inl (by omega)
    have hn : (Char.ofNat n).toNat = n := by rw [Char.ofNat, dif_pos hvalid]; rfl
    refine ⟨_, ⟨?_, ?_⟩, rfl⟩
    · rw [Char.le_def, UInt32.le_iff_toNat_le]
      change low.toNat ≤ (Char.ofNat n).toNat
      omega
    · rw [Char.le_def, UInt32.le_iff_toNat_le]
      change (Char.ofNat n).toNat ≤ high.toNat
      omega
  · rintro ⟨c, ⟨hlow, hhigh⟩, rfl⟩
    rw [Char.le_def, UInt32.le_iff_toNat_le] at hlow hhigh
    change low.toNat ≤ c.toNat at hlow
    change c.toNat ≤ high.toNat at hhigh
    exact ⟨c, ⟨c.toNat, ⟨hlow, by omega⟩, Char.ofNat_toNat c⟩, rfl⟩

theorem class_digit : Class digit isDigit := class_between (by decide)

theorem class_letter : Class letter isLetter :=
  ((class_between (by decide)).add (class_between (by decide))).add (class_char '_')

theorem class_nameChar : Class (letter + digit) isNameChar := class_letter.add class_digit

theorem Class.mem_star {p : RegularExpression Char} {q : Char → Bool} (h : Class p q)
    (w : List Char) : w ∈ p.star.matches' ↔ ∀ c ∈ w, q c = true := by
  rw [RegularExpression.matches'_star, Language.mem_kstar]
  constructor
  · rintro ⟨L, rfl, hL⟩ c hc
    obtain ⟨v, hv, hcv⟩ := List.mem_flatten.1 hc
    obtain ⟨d, hd, rfl⟩ := (h v).1 (hL v hv)
    rw [List.mem_singleton] at hcv
    exact hcv ▸ hd
  · intro hw
    refine ⟨w.map fun c => [c], by rw [← List.flatMap_def, List.flatMap_singleton'], ?_⟩
    intro v hv
    obtain ⟨c, hc, rfl⟩ := List.mem_map.1 hv
    exact (h _).2 ⟨c, hw c hc, rfl⟩

theorem Class.mem_mul_star {p p' : RegularExpression Char} {q q' : Char → Bool} (h : Class p q)
    (h' : Class p' q') (w : List Char) :
    w ∈ (p * p'.star).matches' ↔ ∃ c cs, w = c :: cs ∧ q c = true ∧ ∀ d ∈ cs, q' d = true := by
  rw [RegularExpression.matches'_mul, Language.mem_mul]
  constructor
  · rintro ⟨u, hu, v, hv, rfl⟩
    obtain ⟨c, hc, rfl⟩ := (h u).1 hu
    exact ⟨c, v, rfl, hc, (h'.mem_star v).1 hv⟩
  · rintro ⟨c, cs, rfl, hc, hcs⟩
    exact ⟨[c], (h _).2 ⟨c, hc, rfl⟩, cs, (h'.mem_star cs).2 hcs, rfl⟩

theorem mem_optional (p : RegularExpression Char) (w : List Char) :
    w ∈ (optional p).matches' ↔ w = [] ∨ w ∈ p.matches' := by
  rw [optional, RegularExpression.matches'_add, Language.mem_add,
    RegularExpression.matches'_epsilon, Language.mem_one]

end Pattern

/-! ### Names -/

theorem mem_name_iff (w : List Char) : w ∈ Pattern.name.matches' ↔
    ∃ c cs, w = c :: cs ∧ isLetter c = true ∧ ∀ d ∈ cs, isNameChar d = true :=
  Pattern.class_letter.mem_mul_star Pattern.class_nameChar w

theorem isNameChar_of_isLetter {c : Char} (h : isLetter c = true) : isNameChar c = true := by
  simp [isNameChar, h]

/-- Where a letter stands, the longest name is the run of the characters of names. -/
theorem longestMatch_name {c : Char} (cs : List Char) (h : isLetter c = true) :
    LongestMatch Pattern.name (c :: cs) (name (c :: cs)) := by
  have hc := isNameChar_of_isLetter h
  refine ⟨?_, List.takeWhile_prefix _, ?_⟩
  · rw [name, List.takeWhile_cons_of_pos hc, mem_name_iff]
    exact ⟨c, _, rfl, h, fun d hd => List.all_eq_true.1 List.all_takeWhile d hd⟩
  · rintro v hv ⟨rest, hrest⟩
    obtain ⟨d, ds, rfl, hd, hds⟩ := (mem_name_iff v).1 hv
    have hall : ∀ e ∈ d :: ds, isNameChar e = true := by
      simpa using ⟨isNameChar_of_isLetter hd, hds⟩
    rw [name, ← hrest, List.takeWhile_append_of_pos hall, List.length_append]
    omega

/-! ### Numbers -/

/-- A minus or nothing. -/
def IsMinus (m : List Char) : Prop := m = [] ∨ m = ['-']

/-- Digits only. -/
def IsDigits (ds : List Char) : Prop := ∀ d ∈ ds, isDigit d = true

/-- A point with digits behind it, or nothing. -/
def IsFraction (f : List Char) : Prop :=
  f = [] ∨ ∃ ds, f = '.' :: ds ∧ ds ≠ [] ∧ IsDigits ds

/-- A sign or nothing. -/
def IsSign (s : List Char) : Prop := s = [] ∨ s = ['+'] ∨ s = ['-']

/-- The mark of an exponent with a sign and digits as far as they are there, or nothing. -/
def IsExponent (e : List Char) : Prop :=
  e = [] ∨ ∃ mark s ds, e = mark :: (s ++ ds) ∧ (mark = 'e' ∨ mark = 'E') ∧ IsSign s ∧ IsDigits ds

theorem mem_repeated_digit (w : List Char) :
    w ∈ (Pattern.repeated Pattern.digit).matches' ↔ w ≠ [] ∧ IsDigits w := by
  rw [Pattern.repeated, Pattern.class_digit.mem_mul_star Pattern.class_digit]
  constructor
  · rintro ⟨c, cs, rfl, hc, hcs⟩
    exact ⟨by simp, by simpa [IsDigits] using ⟨hc, hcs⟩⟩
  · rintro ⟨hne, hw⟩
    obtain ⟨c, cs, rfl⟩ := List.exists_cons_of_ne_nil hne
    exact ⟨c, cs, rfl, hw c List.mem_cons_self, fun d hd => hw d (List.mem_cons_of_mem _ hd)⟩

theorem mem_fraction_iff (f : List Char) :
    f ∈ (Pattern.optional (char '.' * Pattern.repeated Pattern.digit)).matches' ↔
      IsFraction f := by
  rw [Pattern.mem_optional, RegularExpression.matches'_mul, Language.mem_mul]
  refine or_congr_right ⟨?_, ?_⟩
  · rintro ⟨u, hu, ds, hds, rfl⟩
    obtain ⟨c, hc, rfl⟩ := (Pattern.class_char '.' u).1 hu
    obtain rfl : c = '.' := by simpa using hc
    exact ⟨ds, rfl, (mem_repeated_digit ds).1 hds⟩
  · rintro ⟨ds, rfl, hds⟩
    exact ⟨['.'], (Pattern.class_char '.' _).2 ⟨'.', by simp⟩, ds, (mem_repeated_digit ds).2 hds,
      rfl⟩

theorem mem_sign_iff (s : List Char) :
    s ∈ (Pattern.optional (char '+' + char '-')).matches' ↔ IsSign s := by
  rw [Pattern.mem_optional, (Pattern.class_char '+').add (Pattern.class_char '-')]
  simp [IsSign, or_and_right, exists_or]

theorem mem_exponent_iff (e : List Char) :
    e ∈ (Pattern.optional ((char 'e' + char 'E') *
      (Pattern.optional (char '+' + char '-') * Pattern.digit.star))).matches' ↔
      IsExponent e := by
  rw [Pattern.mem_optional, RegularExpression.matches'_mul, Language.mem_mul]
  refine or_congr_right ⟨?_, ?_⟩
  · rintro ⟨u, hu, v, hv, rfl⟩
    obtain ⟨mark, hmark, rfl⟩ := ((Pattern.class_char 'e').add (Pattern.class_char 'E') u).1 hu
    rw [RegularExpression.matches'_mul, Language.mem_mul] at hv
    obtain ⟨s, hs, ds, hds, rfl⟩ := hv
    exact ⟨mark, s, ds, rfl, by simpa using hmark, (mem_sign_iff s).1 hs,
      (Pattern.class_digit.mem_star ds).1 hds⟩
  · rintro ⟨mark, s, ds, rfl, hmark, hs, hds⟩
    refine ⟨[mark], ((Pattern.class_char 'e').add (Pattern.class_char 'E') _).2
      ⟨mark, by simpa using hmark, rfl⟩, s ++ ds, ?_, rfl⟩
    rw [RegularExpression.matches'_mul]
    exact Language.append_mem_mul ((mem_sign_iff s).2 hs) ((Pattern.class_digit.mem_star ds).2 hds)

/-- The parts of a number. -/
theorem mem_number_iff (w : List Char) : w ∈ Pattern.number.matches' ↔
    ∃ m ds f e, w = m ++ (ds ++ (f ++ e)) ∧ IsMinus m ∧ (ds ≠ [] ∧ IsDigits ds) ∧
      IsFraction f ∧ IsExponent e := by
  rw [Pattern.number]
  simp only [RegularExpression.matches'_mul, Language.mem_mul]
  constructor
  · rintro ⟨m, hm, _, ⟨ds, hds, _, ⟨f, hf, e, he, rfl⟩, rfl⟩, rfl⟩
    refine ⟨m, ds, f, e, rfl, ?_, (mem_repeated_digit ds).1 hds, (mem_fraction_iff f).1 hf,
      (mem_exponent_iff e).1 he⟩
    rw [Pattern.mem_optional, Pattern.class_char] at hm
    simpa [IsMinus] using hm
  · rintro ⟨m, ds, f, e, rfl, hm, hds, hf, he⟩
    refine ⟨m, ?_, _, ⟨ds, (mem_repeated_digit ds).2 hds, _, ⟨f, (mem_fraction_iff f).2 hf, e,
      (mem_exponent_iff e).2 he, rfl⟩, rfl⟩, rfl⟩
    rw [Pattern.mem_optional, Pattern.class_char]
    simpa [IsMinus] using hm

/-! ### The greedy parts are such parts -/

theorem isMinus_minus (cs : List Char) : IsMinus (minus cs) := by
  unfold minus
  split
  · exact Or.inr rfl
  · exact Or.inl rfl

theorem isDigits_digits (cs : List Char) : IsDigits (digits cs) :=
  fun d hd => List.all_eq_true.1 List.all_takeWhile d hd

theorem isFraction_fraction (cs : List Char) : IsFraction (fraction cs) := by
  unfold fraction
  split
  · rename_i cs
    split_ifs with h
    · exact Or.inl rfl
    · exact Or.inr ⟨digits cs, rfl, by simpa using h, isDigits_digits cs⟩
  · exact Or.inl rfl

theorem isSign_sign (cs : List Char) : IsSign (sign cs) := by
  unfold sign
  split
  · exact Or.inr (Or.inl rfl)
  · exact Or.inr (Or.inr rfl)
  · exact Or.inl rfl

theorem isExponent_exponent (cs : List Char) : IsExponent (exponent cs) := by
  unfold exponent
  split
  · exact Or.inl rfl
  · split_ifs with h
    · exact Or.inr ⟨_, _, _, rfl, by simpa using h, isSign_sign _, isDigits_digits _⟩
    · exact Or.inl rfl

theorem minus_isPrefix (cs : List Char) : minus cs <+: cs := by
  unfold minus
  split <;> simp

theorem digits_isPrefix (cs : List Char) : digits cs <+: cs := List.takeWhile_prefix _

theorem fraction_isPrefix (cs : List Char) : fraction cs <+: cs := by
  unfold fraction
  split
  · split_ifs
    · simp
    · exact List.cons_prefix_cons.2 ⟨rfl, digits_isPrefix _⟩
  · simp

theorem sign_isPrefix (cs : List Char) : sign cs <+: cs := by
  unfold sign
  split <;> simp

/-- Two prefixes one behind the other are a prefix. -/
theorem append_isPrefix {u v cs : List Char} (hu : u <+: cs) (hv : v <+: cs.drop u.length) :
    u ++ v <+: cs := by
  obtain ⟨rest, rfl⟩ := hu
  rw [List.drop_left] at hv
  exact (List.prefix_append_right_inj u).2 hv

theorem exponent_isPrefix (cs : List Char) : exponent cs <+: cs := by
  unfold exponent
  split
  · simp
  · split_ifs
    · exact List.cons_prefix_cons.2 ⟨rfl, append_isPrefix (sign_isPrefix _) (digits_isPrefix _)⟩
    · simp

/-- What follows the whole part of a number. -/
def numeralTail (cs : List Char) : List Char :=
  fraction cs ++ exponent (cs.drop (fraction cs).length)

/-- What follows the minus of a number. -/
def numeralBody (cs : List Char) : List Char :=
  digits cs ++ numeralTail (cs.drop (digits cs).length)

theorem numeral_eq (cs : List Char) :
    numeral cs = minus cs ++ numeralBody (cs.drop (minus cs).length) := by
  simp [numeral, numeralBody, numeralTail, List.append_assoc]

theorem numeralTail_isPrefix (cs : List Char) : numeralTail cs <+: cs :=
  append_isPrefix (fraction_isPrefix cs) (exponent_isPrefix _)

theorem numeralBody_isPrefix (cs : List Char) : numeralBody cs <+: cs :=
  append_isPrefix (digits_isPrefix cs) (numeralTail_isPrefix _)

theorem numeral_isPrefix (cs : List Char) : numeral cs <+: cs := by
  rw [numeral_eq]
  exact append_isPrefix (minus_isPrefix cs) (numeralBody_isPrefix _)

/-- A number starts with a minus and a digit, or with a digit. -/
theorem startsNumeral_iff (cs : List Char) :
    startsNumeral cs = true ↔ digits (cs.drop (minus cs).length) ≠ [] := by
  unfold startsNumeral minus digits
  split
  · simp [List.takeWhile_cons]
  · rename_i c cs hne
    have hminus : ∀ cs', c :: cs = '-' :: cs' → cs = [] := by
      rintro cs' ⟨rfl, rfl⟩
      cases cs with
      | nil => rfl
      | cons d ds => exact (hne d ds rfl rfl).elim
    split
    · rename_i cs' heq
      obtain rfl := hminus cs' heq
      obtain ⟨rfl, -⟩ : c = '-' ∧ [] = cs' := by simpa using heq
      simp [isDigit]
    · simp [List.takeWhile_cons]
  · simp

/-- **The scanner's number is a number.** -/
theorem numeral_mem_number {cs : List Char} (h : startsNumeral cs = true) :
    numeral cs ∈ Pattern.number.matches' := by
  rw [mem_number_iff, numeral_eq]
  exact ⟨_, _, _, _, rfl, isMinus_minus cs, ⟨(startsNumeral_iff cs).1 h, isDigits_digits _⟩,
    isFraction_fraction _, isExponent_exponent _⟩

/-! ### No match is longer -/

theorem digits_append {ds : List Char} (h : IsDigits ds) (cs : List Char) :
    digits (ds ++ cs) = ds ++ digits cs :=
  List.takeWhile_append_of_pos h

/-- A sign is no digit. -/
theorem sign_digit {d : Char} (h : isDigit d = true) (cs : List Char) : sign (d :: cs) = [] := by
  unfold sign
  split
  · rename_i heq
    obtain ⟨rfl, -⟩ := List.cons.inj heq
    exact absurd h (by decide)
  · rename_i heq
    obtain ⟨rfl, -⟩ := List.cons.inj heq
    exact absurd h (by decide)
  · rfl

theorem minus_digit {d : Char} (h : isDigit d = true) (cs : List Char) : minus (d :: cs) = [] := by
  unfold minus
  split
  · rename_i heq
    obtain ⟨rfl, -⟩ := List.cons.inj heq
    exact absurd h (by decide)
  · rfl

theorem length_le_length_exponent {e : List Char} (he : IsExponent e) (rest : List Char) :
    e.length ≤ (exponent (e ++ rest)).length := by
  obtain rfl | ⟨mark, s, ds, rfl, hmark, hs, hds⟩ := he
  · simp
  · have hexp : exponent (mark :: (s ++ ds) ++ rest) = mark :: (sign (s ++ (ds ++ rest)) ++
        digits ((s ++ (ds ++ rest)).drop (sign (s ++ (ds ++ rest))).length)) := by
      simp [exponent, hmark]
    have hdigits : ds.length ≤ (digits (ds ++ rest)).length := by
      rw [digits_append hds, List.length_append]; omega
    rw [hexp]
    -- Where the match has no sign, its first digit is not taken for one.
    obtain rfl | rfl | rfl := hs
    · cases ds with
      | nil => simp
      | cons d ds =>
        have hsign := sign_digit (hds d List.mem_cons_self) (ds ++ rest)
        simpa [hsign] using hdigits
    · simpa [sign] using hdigits
    · simpa [sign] using hdigits

/-- The mark of an exponent belongs to no part before it. -/
theorem digits_exponent {e : List Char} (he : IsExponent e) (hne : e ≠ []) (rest : List Char) :
    digits (e ++ rest) = [] ∧ fraction (e ++ rest) = [] := by
  obtain rfl | ⟨mark, s, ds, rfl, hmark, -⟩ := he
  · exact absurd rfl hne
  · obtain rfl | rfl := hmark <;> simp [digits, fraction, isDigit]

/-- Behind the digits of a number stands a point or a mark. -/
theorem digits_fraction {f e : List Char} (hf : IsFraction f) (he : IsExponent e)
    (hne : f ++ e ≠ []) (rest : List Char) : digits (f ++ (e ++ rest)) = [] := by
  obtain rfl | ⟨ds, rfl, -⟩ := hf
  · exact (digits_exponent he (by simpa using hne) rest).1
  · simp [digits, isDigit]

theorem length_le_length_numeralTail {f e : List Char} (hf : IsFraction f) (he : IsExponent e)
    (rest : List Char) : (f ++ e).length ≤ (numeralTail (f ++ (e ++ rest))).length := by
  have hexp := length_le_length_exponent he rest
  obtain rfl | ⟨ds, rfl, hne, hds⟩ := hf
  · by_cases hnil : e = []
    · simp [hnil]
    · simpa [numeralTail, (digits_exponent he hnil rest).2] using hexp
  · have hfrac : fraction ('.' :: (ds ++ (e ++ rest))) = '.' :: (ds ++ digits (e ++ rest)) := by
      simp [fraction, digits_append hds, hne]
    -- Only a match that ends here can leave digits for the scanner to go on with.
    by_cases hnil : e = []
    · simp [numeralTail, hnil] at hfrac ⊢
      rw [hfrac, List.length_cons, List.length_append]
      omega
    · rw [(digits_exponent he hnil rest).1, List.append_nil] at hfrac
      simp only [numeralTail, List.cons_append, hfrac, List.length_cons, List.length_append]
      simpa using hexp

theorem length_le_length_numeralBody {ds f e : List Char} (hds : IsDigits ds) (hf : IsFraction f)
    (he : IsExponent e) (rest : List Char) :
    (ds ++ (f ++ e)).length ≤ (numeralBody (ds ++ (f ++ (e ++ rest)))).length := by
  have htail := length_le_length_numeralTail hf he rest
  have hdigits := digits_append hds (f ++ (e ++ rest))
  by_cases hnil : f ++ e = []
  · rw [hnil, List.append_nil, numeralBody, hdigits]
    simp only [List.length_append]
    omega
  · rw [digits_fraction hf he hnil, List.append_nil] at hdigits
    rw [numeralBody, hdigits, List.drop_left]
    simp only [List.length_append] at htail ⊢
    omega

/-- **No number at the start of a text is longer than the scanner's.** -/
theorem length_le_length_numeral {v cs : List Char} (hv : v ∈ Pattern.number.matches')
    (hcs : v <+: cs) : v.length ≤ (numeral cs).length := by
  obtain ⟨m, ds, f, e, rfl, hm, ⟨hne, hds⟩, hf, he⟩ := (mem_number_iff v).1 hv
  obtain ⟨rest, rfl⟩ := hcs
  have hbody := length_le_length_numeralBody hds hf he rest
  have hminus : minus (m ++ (ds ++ (f ++ (e ++ rest)))) = m := by
    obtain rfl | rfl := hm
    · obtain ⟨d, ds, rfl⟩ := List.exists_cons_of_ne_nil hne
      exact minus_digit (hds d List.mem_cons_self) _
    · rfl
  rw [numeral_eq]
  simp only [List.append_assoc, hminus, List.drop_left, List.length_append] at hbody ⊢
  omega

/-- Where a number starts, the scanner takes the longest one. -/
theorem longestMatch_numeral {cs : List Char} (h : startsNumeral cs = true) :
    LongestMatch Pattern.number cs (numeral cs) :=
  ⟨numeral_mem_number h, numeral_isPrefix cs, fun _ hv hcs => length_le_length_numeral hv hcs⟩

end Token

end GeoLint
