import GeoLint.Text.Blank
import GeoLint.Text.Styling
import Mathlib.Data.List.TakeWhile

/-!
# Lines of a text

A text is `OneLine` if none of its characters ends a line.  Lines that are written one behind the
other, with a line feed behind each or between each two, are read back as they were written exactly
if each of them is such a text (`lines_flatMap_iff`, `lines_intercalate_iff`).  Control sequences
hold no character that ends a line, so that leaving them out changes nothing here
(`oneLine_unstyled`).
-/

namespace GeoLint

namespace Text

/-- No character of the text ends a line. -/
def OneLine (s : String) : Prop :=
  ∀ c ∈ s.toList, isLineBreak c = false

instance : DecidablePred OneLine := fun s =>
  decidable_of_iff ((s.toList.all fun c => !isLineBreak c) = true) (by simp [OneLine])

theorem isBlank_of_isLineBreak {c : Char} (h : isLineBreak c = true) : isBlank c = true := by
  simp only [isLineBreak, isBlank, Bool.or_eq_true, Bool.and_eq_true, decide_eq_true_eq,
    beq_iff_eq] at h ⊢
  omega

theorem isLineBreak_of_not_isBlank {c : Char} (h : isBlank c = false) : isLineBreak c = false := by
  rw [Bool.eq_false_iff] at h ⊢
  exact fun hbreak => h (isBlank_of_isLineBreak hbreak)

/-- The characters of ASCII that show end no line, nor does the space. -/
theorem isLineBreak_of_ascii {c : Char} (h : 0x20 ≤ c.toNat ∧ c.toNat ≤ 0x7E) :
    isLineBreak c = false := by
  simp only [isLineBreak, Bool.or_eq_false_iff, Bool.and_eq_false_iff, decide_eq_false_iff_not,
    beq_eq_false_iff_ne]
  omega

/-! ### Texts of one line -/

section OneLine

variable {s t : String}

@[simp] theorem oneLine_append : OneLine (s ++ t) ↔ OneLine s ∧ OneLine t := by
  simp only [OneLine, String.toList_append, List.forall_mem_append]

theorem oneLine_ofList {cs : List Char} :
    OneLine (String.ofList cs) ↔ ∀ c ∈ cs, isLineBreak c = false := by
  rw [OneLine, String.toList_ofList]

theorem oneLine_intercalate {ss : List String} (hs : OneLine s) (hss : ∀ t ∈ ss, OneLine t) :
    OneLine (s.intercalate ss) := by
  induction ss with
  | nil => simp [OneLine]
  | cons t ss ih =>
    obtain ⟨ht, hss⟩ := List.forall_mem_cons.1 hss
    cases ss with
    | nil => rwa [String.intercalate_singleton]
    | cons u us =>
      rw [String.intercalate_cons_cons, oneLine_append, oneLine_append]
      exact ⟨⟨ht, hs⟩, ih hss⟩

@[simp] theorem oneLine_repr (n : Nat) : OneLine n.repr := by
  intro c hc
  rw [Nat.toList_repr] at hc
  have hdigit : c.isDigit = true := Nat.isDigit_of_mem_toDigits (by decide) (by decide) hc
  simp only [Char.isDigit, Bool.and_eq_true, decide_eq_true_eq, ge_iff_le,
    UInt32.le_iff_toNat_le] at hdigit
  change 48 ≤ c.toNat ∧ c.toNat ≤ 57 at hdigit
  exact isLineBreak_of_ascii (by omega)

end OneLine

/-! ### Reading lines -/

section Lines

variable {l rest : List Char} {ls : List (List Char)}

theorem lines_cons_of_not {c : Char} (hc : isLineBreak c = false) (cs : List Char) :
    lines (c :: cs) = match lines cs with
      | [] => [[c]]
      | l :: ls => (c :: l) :: ls := by
  rw [lines]
  · exact if_neg (by simp [hc])
  · rintro cs' rfl
    cases hc

/-- A line is what stands before a line feed. -/
theorem lines_append (hl : ∀ c ∈ l, isLineBreak c = false) (rest : List Char) :
    lines (l ++ '\n' :: rest) = l :: lines rest := by
  induction l with
  | nil => rfl
  | cons c l ih =>
    obtain ⟨hc, hl⟩ := List.forall_mem_cons.1 hl
    rw [List.cons_append, lines_cons_of_not hc, ih hl]

/-- The last line need not be ended. -/
theorem lines_singleton (hne : l ≠ []) (hl : ∀ c ∈ l, isLineBreak c = false) : lines l = [l] := by
  induction l with
  | nil => exact absurd rfl hne
  | cons c l ih =>
    obtain ⟨hc, hl⟩ := List.forall_mem_cons.1 hl
    rw [lines_cons_of_not hc]
    by_cases hlast : l = []
    · rw [hlast]
      rfl
    · rw [ih hlast hl]

/-- No line holds a character that ends one. -/
theorem of_mem_lines {cs : List Char} (h : l ∈ lines cs) : ∀ c ∈ l, isLineBreak c = false := by
  fun_induction lines cs generalizing l with
  | case1 => cases h
  | case2 cs ih =>
    rcases List.mem_cons.1 h with rfl | h
    · simp
    · exact ih h
  | case3 c cs _ hc ih =>
    rcases List.mem_cons.1 h with rfl | h
    · simp
    · exact ih h
  | case4 c cs _ hc hnil ih =>
    obtain rfl := List.mem_singleton.1 h
    simpa using hc
  | case5 c cs _ hc first others hlines ih =>
    rw [hlines] at ih
    rcases List.mem_cons.1 h with rfl | h
    · exact List.forall_mem_cons.2 ⟨by simpa using hc, ih List.mem_cons_self⟩
    · exact ih (List.mem_cons_of_mem _ h)

/-- **Lines with a line feed behind each** are read back as written exactly if they are lines. -/
theorem lines_flatMap_iff :
    lines (ls.flatMap (· ++ ['\n'])) = ls ↔ ∀ l ∈ ls, ∀ c ∈ l, isLineBreak c = false := by
  constructor
  · intro h l hl
    rw [← h] at hl
    exact of_mem_lines hl
  · intro h
    induction ls with
    | nil => rfl
    | cons l ls ih =>
      obtain ⟨hl, hls⟩ := List.forall_mem_cons.1 h
      rw [List.flatMap_cons, List.append_assoc, List.singleton_append, lines_append hl, ih hls]

/-- **Lines with a line feed between each two**, none of them empty, are read back as written
exactly if they are lines. -/
theorem lines_intercalate_iff (hne : ∀ l ∈ ls, l ≠ []) :
    lines (['\n'].intercalate ls) = ls ↔ ∀ l ∈ ls, ∀ c ∈ l, isLineBreak c = false := by
  constructor
  · intro h l hl
    rw [← h] at hl
    exact of_mem_lines hl
  · intro h
    induction ls with
    | nil => rfl
    | cons l ls ih =>
      obtain ⟨hl, hls⟩ := List.forall_mem_cons.1 h
      obtain ⟨hlne, hlsne⟩ := List.forall_mem_cons.1 hne
      cases ls with
      | nil => rw [List.intercalate_singleton, lines_singleton hlne hl]
      | cons l' ls =>
        rw [List.intercalate_cons_cons, List.append_assoc, List.singleton_append,
          lines_append hl, ih hlsne hls]

end Lines

/-! ### Styling -/

theorem isLineBreak_of_isStyleParameter {c : Char} (h : isStyleParameter c = true) :
    isLineBreak c = false := by
  simp only [isStyleParameter, Decimal.isDigit, Bool.or_eq_true, Bool.and_eq_true,
    decide_eq_true_eq, Char.le_def, UInt32.le_iff_toNat_le] at h
  rcases h with (rfl | rfl) | h
  · rfl
  · rfl
  · change 48 ≤ c.toNat ∧ c.toNat ≤ 57 at h
    exact isLineBreak_of_ascii (by omega)

theorem isLineBreak_of_isAlpha {c : Char} (h : c.isAlpha = true) : isLineBreak c = false := by
  change (decide (c.val ≥ 'A'.val ∧ c.val ≤ 'Z'.val) ||
    decide (c.val ≥ 'a'.val) && decide (c.val ≤ 'z'.val)) = true at h
  simp only [Bool.or_eq_true, Bool.and_eq_true, decide_eq_true_eq, ge_iff_le,
    UInt32.le_iff_toNat_le] at h
  change 65 ≤ c.toNat ∧ c.toNat ≤ 90 ∨ 97 ≤ c.toNat ∧ c.toNat ≤ 122 at h
  exact isLineBreak_of_ascii (by omega)

/-- The control sequence that a text starts with ends no line. -/
theorem exists_of_afterStyling? {cs rest : List Char} (h : afterStyling? cs = some rest) :
    ∃ sequence, cs = sequence ++ rest ∧ ∀ c ∈ sequence, isLineBreak c = false := by
  unfold afterStyling? at h
  split at h
  · rename_i e cs
    split at h
    · rename_i letter tail hdrop
      split at h
      · rename_i hletter
        obtain ⟨rfl, halpha⟩ : e = escapeChar ∧ letter.isAlpha = true := by simpa using hletter
        obtain rfl := Option.some.inj h
        refine ⟨escapeChar :: '[' :: (cs.takeWhile isStyleParameter ++ [letter]), ?_, ?_⟩
        · simp only [List.cons_append, List.append_assoc, List.nil_append]
          rw [← hdrop, List.takeWhile_append_dropWhile]
        · rw [List.forall_mem_cons, List.forall_mem_cons, List.forall_mem_append]
          refine ⟨rfl, rfl, fun c hc => ?_, by simpa using isLineBreak_of_isAlpha halpha⟩
          exact isLineBreak_of_isStyleParameter (List.mem_takeWhile_imp hc)
      · cases h
    · cases h
  · cases h

/-- **Leaving out control sequences** neither makes a text of one line nor spoils one. -/
theorem oneLine_unstyled {cs : List Char} :
    (∀ c ∈ unstyled cs, isLineBreak c = false) ↔ ∀ c ∈ cs, isLineBreak c = false := by
  fun_induction unstyled cs with
  | case1 => rfl
  | case2 d tail rest h ih =>
    obtain ⟨sequence, hcs, hsequence⟩ := exists_of_afterStyling? h
    rw [ih, hcs, List.forall_mem_append]
    exact ⟨fun hrest => ⟨hsequence, hrest⟩, And.right⟩
  | case3 d tail h ih => rw [List.forall_mem_cons, List.forall_mem_cons, ih]

end Text

end GeoLint
