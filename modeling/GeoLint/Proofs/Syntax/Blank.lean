import GeoLint.Proofs.Syntax.Soundness
import GeoLint.Proofs.Token.Tiling

/-!
# Blank scripts

A script of white space has no statements (`parse_blank`).  White space is more than what the
scanner skips: a line feed is a separator, and a no-break space or a form feed is an unknown
token.  None of these is left for a statement.
-/

namespace GeoLint

open Grammar Parsing Token

/-- The characters of names are visible. -/
theorem isBlank_of_isNameChar {c : Char} (h : isNameChar c = true) : Text.isBlank c = false := by
  have hrange : 0x30 ≤ c.toNat ∧ c.toNat ≤ 0x7A := by
    simp only [isNameChar, isLetter, Decimal.isDigit, Bool.or_eq_true, Bool.and_eq_true,
      decide_eq_true_eq, Char.le_def, UInt32.le_iff_toNat_le] at h
    rcases h with ((h | h) | rfl) | h
    · change 97 ≤ c.toNat ∧ c.toNat ≤ 122 at h
      omega
    · change 65 ≤ c.toNat ∧ c.toNat ≤ 90 at h
      omega
    · decide
    · change 48 ≤ c.toNat ∧ c.toNat ≤ 57 at h
      omega
  simp only [Text.isBlank, Bool.or_eq_false_iff, Bool.and_eq_false_iff, decide_eq_false_iff_not,
    beq_eq_false_iff_ne]
  omega

/-- White space is a line end, an unknown token, or the end of the script. -/
theorem kind_of_blank {kind : Kind} {w value rest : List Char} (h : IsLexeme kind w value rest)
    (hw : ∀ c ∈ w, Text.isBlank c = true) : kind = .ending ∨ kind = .newline ∨ kind = .unknown := by
  have hname : ∀ c ∈ w, isNameChar c ≠ true := by
    intro c hc hname
    have hblank := hw c hc
    rw [isBlank_of_isNameChar hname] at hblank
    cases hblank
  cases h with
  | ending => exact .inl rfl
  | number hmatch =>
    obtain ⟨m, ds, f, e, rfl, -, ⟨hds, hdigits⟩, -⟩ := (mem_number_iff _).1 hmatch.1
    obtain ⟨d, ds, rfl⟩ := List.exists_cons_of_ne_nil hds
    have hd : isNameChar d = true := by simp [isNameChar, hdigits d List.mem_cons_self]
    exact absurd hd (hname d (by simp))
  | identifier hmatch | truth hmatch =>
    obtain ⟨c, cs, rfl, hc, -⟩ := (mem_name_iff _).1 hmatch.1
    exact absurd (isNameChar_of_isLetter hc) (hname c List.mem_cons_self)
  | @closed q | @unclosed q =>
    rename_i hq _
    have hblank := hw q List.mem_cons_self
    rcases hq with rfl | rfl <;> exact absurd hblank (by decide)
  | @single c rest halone =>
    have hblank := hw c List.mem_cons_self
    unfold Kind.ofChar
    split <;> simp_all <;> revert hblank <;> decide

/-- The tokens of a blank script are line ends. -/
theorem separators_of_blank {source : String} (h : Text.blank source.toList = true) :
    Separators (scan source).1 := by
  intro t ht
  obtain ⟨stop, -, hbefore, hrun⟩ := run_eq source.length (.ofSource source)
    (length_ofSource source).le
  rw [scan, hrun, List.mem_filter, List.mem_map] at ht
  obtain ⟨⟨n, hn, rfl⟩, hknown⟩ := ht
  have htakes := takes (advance n (.ofSource source))
  have hlexeme : ∀ c ∈ lexemeText (advance n (.ofSource source)), Text.isBlank c = true := by
    intro c hc
    refine List.all_eq_true.1 h c ?_
    have hslices := flatMap_slices (.ofSource source) n
    rw [htakes.text] at hslices
    change c ∈ (Cursor.ofSource source).rest
    rw [← hslices]
    simp [hc]
  rcases kind_of_blank htakes.lexeme hlexeme with hkind | hkind | hkind
  · exact absurd hkind (hbefore n (List.mem_range.1 hn))
  · rw [upcoming, hkind]
    rfl
  · exact absurd hkind (of_decide_eq_true hknown)

theorem statements_of_separators {ts : List Token} (h : Separators ts) (fuel : Nat) :
    statements fuel ts = .ok [] := by
  induction fuel generalizing ts with
  | zero => rfl
  | succ fuel ih =>
    cases ts with
    | nil => rfl
    | cons t ts =>
      rw [statements, if_pos (h t List.mem_cons_self)]
      exact ih fun t ht => h t (List.mem_cons_of_mem _ ht)

/-- A blank script has a tree without statements. -/
theorem parse_blank {source : String} (h : Text.blank source.toList = true) :
    ∃ s, Script.parse source = .ok s ∧ s.body = [] := by
  have hbody := statements_of_separators (separators_of_blank h) (scan source).1.length
  rw [parse_eq, script, hbody]
  exact ⟨_, rfl, rfl⟩

end GeoLint
