import GeoLint.Text.Blank
import Mathlib.Data.List.TakeWhile

/-!
# Trimmed texts

Trimming takes away what stands around a text (`trimWhile_padded`).  It leaves nothing if there is
nothing but white space (`trim_eq_nil_iff`), and else a text that begins and ends with a character
that shows (`solid_trim`).
-/

namespace GeoLint

namespace Text

/-- The text begins and ends with a character that shows. -/
structure Solid (cs : List Char) : Prop where
  /-- There is a character. -/
  ne_nil : cs ≠ []
  /-- The first is not white space. -/
  head : ∀ c ∈ cs.head?, isBlank c = false
  /-- Nor is the last. -/
  last : ∀ c ∈ cs.getLast?, isBlank c = false

theorem solid_of_forall {cs : List Char} (hne : cs ≠ []) (h : ∀ c ∈ cs, isBlank c = false) :
    Solid cs :=
  ⟨hne, fun c hc => h c (List.mem_of_mem_head? hc), fun c hc => h c (List.mem_of_getLast? hc)⟩

theorem solid_singleton {c : Char} (h : isBlank c = false) : Solid [c] :=
  solid_of_forall (by simp) (by simpa using h)

theorem Solid.append {front back : List Char} (hfront : Solid front) (hback : Solid back)
    (middle : List Char) : Solid (front ++ (middle ++ back)) where
  ne_nil := by simp [hfront.ne_nil]
  head c hc := hfront.head c (by simpa [hfront.ne_nil] using hc)
  last c hc := hback.last c (by simpa [hback.ne_nil] using hc)

/-! ### What is trimmed away -/

/-- What satisfies `p` around a text that neither begins nor ends so is taken away. -/
theorem trimWhile_padded {p : Char → Bool} {lead cs trail : List Char}
    (hlead : ∀ c ∈ lead, p c = true) (hne : cs ≠ []) (hhead : ∀ c ∈ cs.head?, p c = false)
    (hlast : ∀ c ∈ cs.getLast?, p c = false) (htrail : ∀ c ∈ trail, p c = true) :
    trimWhile p (lead ++ (cs ++ trail)) = cs := by
  have hfront : (cs ++ trail).dropWhile p = cs ++ trail := by
    obtain ⟨c, rest, rfl⟩ := List.exists_cons_of_ne_nil hne
    have hc : p c = false := hhead c (by simp)
    simp [hc]
  have hback : dropEndWhile p (cs ++ trail) = cs := by
    obtain ⟨rest, c, rfl⟩ := (List.eq_nil_or_concat cs).resolve_left hne
    have hc : p c = false := hlast c (by simp)
    have hdrop : (trail.reverse ++ c :: rest.reverse).dropWhile p = c :: rest.reverse := by
      rw [List.dropWhile_append_of_pos (by simpa using htrail)]
      simp [hc]
    simp [dropEndWhile, hdrop]
  rw [trimWhile, List.dropWhile_append_of_pos hlead, hfront, hback]

/-- White space around a solid text is what trimming takes away. -/
theorem trim_padded {lead cs trail : List Char} (hlead : ∀ c ∈ lead, isBlank c = true)
    (h : Solid cs) (htrail : ∀ c ∈ trail, isBlank c = true) :
    trim (lead ++ (cs ++ trail)) = cs :=
  trimWhile_padded hlead h.ne_nil h.head h.last htrail

theorem trim_solid {cs : List Char} (h : Solid cs) : trim cs = cs := by
  simpa using @trim_padded [] cs [] (by simp) h (by simp)

/-! ### What is left -/

/-- A text is what trimming leaves of it, with white space around that. -/
theorem exists_eq_trim (cs : List Char) :
    ∃ lead trail, cs = lead ++ (trim cs ++ trail) ∧ (∀ c ∈ lead, isBlank c = true) ∧
      ∀ c ∈ trail, isBlank c = true := by
  refine ⟨cs.takeWhile isBlank, ((cs.dropWhile isBlank).reverse.takeWhile isBlank).reverse, ?_,
    fun c hc => List.mem_takeWhile_imp hc, fun c hc => ?_⟩
  · rw [trim, trimWhile, dropEndWhile, ← List.reverse_append, List.takeWhile_append_dropWhile,
      List.reverse_reverse, List.takeWhile_append_dropWhile]
  · exact List.mem_takeWhile_imp (List.mem_reverse.1 hc)

theorem mem_of_mem_trim {cs : List Char} {c : Char} (h : c ∈ trim cs) : c ∈ cs := by
  obtain ⟨lead, trail, heq, -, -⟩ := exists_eq_trim cs
  rw [heq]
  simp [h]

/-- Trimming leaves nothing of a blank text, and of no other. -/
theorem trim_eq_nil_iff (cs : List Char) : trim cs = [] ↔ blank cs = true := by
  have hall : cs.dropWhile isBlank = [] ↔ blank cs = true := by
    rw [List.dropWhile_eq_nil_iff, blank, List.all_eq_true]
  rw [← hall, trim, trimWhile, dropEndWhile, List.reverse_eq_nil_iff, List.dropWhile_eq_nil_iff]
  constructor
  · intro h
    -- what is left would start with a character that shows
    by_contra hne
    have hhead := List.head_dropWhile_not isBlank hne
    rw [h _ (List.mem_reverse.2 (List.head_mem hne))] at hhead
    cases hhead
  · intro h
    simp [h]

theorem blank_eq_false_of_trim {cs : List Char} (h : trim cs ≠ []) : blank cs = false := by
  rwa [← Bool.not_eq_true, ← trim_eq_nil_iff]

/-- **What trimming leaves is solid**, if it leaves anything. -/
theorem solid_trim {cs : List Char} (h : trim cs ≠ []) : Solid (trim cs) := by
  have hshows {ds : List Char} {c : Char} (hc : c ∈ (ds.dropWhile isBlank).head?) :
      isBlank c = false := by
    have hhead := List.head?_dropWhile_not isBlank ds
    rwa [hc] at hhead
  refine ⟨h, fun c hc => ?_, fun c hc => ?_⟩
  · -- it begins where the text without the white space in front does
    obtain ⟨rest, hrest⟩ : trim cs <+: cs.dropWhile isBlank := by
      rw [trim, trimWhile, dropEndWhile, ← List.reverse_suffix, List.reverse_reverse]
      exact List.dropWhile_suffix isBlank
    have hhead : c ∈ (cs.dropWhile isBlank).head? := by
      rw [← hrest]
      simpa [h] using hc
    exact hshows hhead
  · rw [trim, trimWhile, dropEndWhile, List.getLast?_reverse] at hc
    exact hshows hc

end Text

end GeoLint
