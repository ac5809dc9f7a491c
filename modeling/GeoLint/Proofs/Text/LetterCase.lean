import GeoLint.Text.LetterCase

/-!
# Plain words in any letter case

The lower case of a text is defined for all scripts, but for words of plain letters only ASCII counts:
a text has such a word as its lower case exactly if it differs from it in the case of ASCII letters
(`lower_eq_iff`).  What else has a small letter in ASCII are two signs.  The dotted capital I leaves
its dot behind, and the sign for Kelvin becomes a k, which for this reason is not a plain letter.
-/

namespace GeoLint

namespace Text

/-- The small letters of ASCII other than k. -/
def IsPlain (c : Char) : Prop :=
  0x61 ≤ c.toNat ∧ c.toNat ≤ 0x7A ∧ c.toNat ≠ 0x6B

instance (c : Char) : Decidable (IsPlain c) :=
  inferInstanceAs (Decidable (_ ∧ _ ∧ _))

/-! ### Letters of ASCII -/

theorem toNat_ofNat_eq_or (n : Nat) : (Char.ofNat n).toNat = n ∨ (Char.ofNat n).toNat = 0 := by
  by_cases h : n.isValidChar
  · have hvalid : Char.ofNat n = Char.ofNatAux n h := dif_pos h
    exact .inl (congrArg Char.toNat hvalid)
  · exact .inr (congrArg Char.toNat (dif_neg h))

theorem toLower_of_capital {c : Char} (h : 0x41 ≤ c.toNat ∧ c.toNat ≤ 0x5A) :
    c.toLower = Char.ofNat (c.toNat + 32) := by
  have hall : ∀ n < 0x5B, 0x41 ≤ n → (Char.ofNat n).toLower = Char.ofNat (n + 32) := by decide
  simpa using hall c.toNat (by omega) h.1

theorem toLower_of_not_capital {c : Char} (h : ¬ (0x41 ≤ c.toNat ∧ c.toNat ≤ 0x5A)) :
    c.toLower = c := by
  unfold Char.toLower
  rw [dif_neg]
  rw [ge_iff_le, UInt32.le_iff_toNat_le, UInt32.le_iff_toNat_le]
  exact h

/-! ### The table of capitals -/

/-- Beyond ASCII no capital has a plain small letter. -/
theorem capitals_cases : ∀ r ∈ capitals, (r.first = 0x41 ∧ r.last = 0x5A ∧ r.shift = 32) ∨
    128 ≤ r.first ∧ (128 ≤ (r.first : Int) + r.shift ∨
      r.last = r.first ∧ (r.first : Int) + r.shift = 0x6B) := by
  decide +kernel

/-- A character becomes the same small letter as in ASCII, or there is nothing plain about it. -/
theorem lowerChar_cases (c : Char) :
    lowerChar c = [c.toLower] ∨ (∃ d ∈ lowerChar c, ¬ IsPlain d) ∧ ¬ IsPlain c.toLower := by
  unfold lowerChar
  split
  · rename_i hdotted
    subst hdotted
    exact .inr ⟨⟨Char.ofNat 0x307, by simp, by decide⟩, by decide⟩
  · split
    · rename_i r hfind
      have hholds := List.find?_some hfind
      simp only [CaseRange.holds, Bool.and_eq_true, decide_eq_true_eq] at hholds
      rcases capitals_cases r (List.mem_of_find?_eq_some hfind) with ⟨hfirst, hlast, hshift⟩ | hbeyond
      · left
        rw [toLower_of_capital (by omega), hshift]
        rfl
      · right
        refine ⟨⟨_, List.mem_singleton_self _, ?_⟩, ?_⟩
        · have hsmall := toNat_ofNat_eq_or ((c.toNat : Int) + r.shift).toNat
          unfold IsPlain
          omega
        · rw [toLower_of_not_capital (by omega)]
          unfold IsPlain
          omega
    · rename_i hfind
      have hnot := List.find?_eq_none.1 hfind ⟨0x41, 0x5A, 1, 32⟩ List.mem_cons_self
      simp only [CaseRange.holds, Nat.mod_one, beq_self_eq_true, Bool.and_true, Bool.and_eq_true,
        decide_eq_true_eq] at hnot
      rw [toLower_of_not_capital hnot]
      exact .inl rfl

theorem lowerFrom_eq_iff {w : List Char} (h : ∀ c ∈ w, IsPlain c) (before cs : List Char) :
    lowerFrom before cs = w ↔ cs.map Char.toLower = w := by
  induction cs generalizing before w with
  | nil => rfl
  | cons c cs ih =>
    rw [lowerFrom, List.map_cons]
    -- A sigma at the end of a word has a form of its own, which is not plain either.
    have hsmall : ∀ small, small = (if c = 'Σ' && leadsToCased before && !leadsToCased cs
          then ['ς'] else lowerChar c) →
        small = [c.toLower] ∨ (∃ d ∈ small, ¬ IsPlain d) ∧ ¬ IsPlain c.toLower := by
      rintro small rfl
      split
      · rename_i hsigma
        obtain rfl : c = 'Σ' := by simp_all
        exact .inr ⟨⟨'ς', List.mem_singleton_self _, by decide⟩, by decide⟩
      · exact lowerChar_cases c
    rcases hsmall _ rfl with heq | ⟨⟨d, hd, hplain⟩, hlower⟩
    · rw [heq]
      cases w with
      | nil => simp
      | cons e w =>
        rw [List.forall_mem_cons] at h
        simp only [List.singleton_append, List.cons.injEq, ih h.2]
    · constructor
      · rintro rfl
        exact absurd (h d (List.mem_append_left _ hd)) hplain
      · rintro rfl
        exact absurd (h _ List.mem_cons_self) hlower

/-- **A plain word in any letter case** is the word in the letters of ASCII. -/
theorem lower_eq_iff {w : String} (h : ∀ c ∈ w.toList, IsPlain c) (s : String) :
    lower s = w ↔ s.toLower = w := by
  have hlower : s.toLower.toList = s.toList.map Char.toLower := String.toList_map
  rw [← String.toList_inj, ← String.toList_inj, lower, String.toList_ofList, hlower]
  exact lowerFrom_eq_iff h [] s.toList

end Text

end GeoLint
