import GeoLint.Proofs.Catalogue.Cutting
import GeoLint.Proofs.Catalogue.Grouping

/-!
# Overloads that nothing spells out

A signature is cut at the bars outside parentheses.  The first piece ends at the first of these bars
(`cutBars_cases`), and what stands before any of them is cut apart from what stands behind it
(`cutBars_append_bar`).

A piece that is nothing but white space spells out no overload.  At the end of a signature it is
dropped.  Where a bar ends it, it is kept and makes an overload that has no signature and no
parameters.  `empty_signature_iff` says that such overloads come from these pieces and from nothing
else, and `empty_signatures_occur` that they make calls pass which no signature spells out.
-/

namespace GeoLint

namespace Signature

/-! ### Where bars cut -/

theorem cutBars_ne_nil (depth : Nat) (cs : List Char) : cutBars depth cs ≠ [] :=
  levelCut_bars.ne_nil depth cs

/-- **The first piece** is the whole text, or it ends at a bar outside parentheses, behind which the
text is cut like any other. -/
theorem cutBars_cases (depth : Nat) (cs : List Char) :
    cutBars depth cs = [cs] ∨
      ∃ w rest, cs = w ++ '|' :: rest ∧ w.foldl parenDepth depth = 0 ∧
        cutBars depth cs = w :: cutBars 0 rest := by
  induction cs generalizing depth with
  | nil => exact .inl rfl
  | cons c cs ih =>
    by_cases hbar : c = '|' ∧ depth = 0
    · obtain ⟨rfl, rfl⟩ := hbar
      exact .inr ⟨[], cs, rfl, rfl, rfl⟩
    · have hcut : cutBars depth (c :: cs) = grow c (cutBars (parenDepth depth c) cs) := by
        rw [cutBars, if_neg (by simpa using hbar)]
      rcases ih (parenDepth depth c) with hwhole | ⟨w, rest, rfl, hlevel, hpieces⟩
      · exact .inl (by rw [hcut, hwhole, grow])
      · exact .inr ⟨c :: w, rest, rfl, hlevel, by rw [hcut, hpieces, grow]⟩

/-- **A bar outside parentheses cuts**: no piece has a part before it and a part behind it. -/
theorem cutBars_append_bar {depth : Nat} {front : List Char}
    (h : front.foldl parenDepth depth = 0) (rest : List Char) :
    cutBars depth (front ++ '|' :: rest) = cutBars depth front ++ cutBars 0 rest := by
  rw [levelCut_bars.cut_append h, h]

/-! ### Blank pieces -/

/-- A branch starts behind the text: it is empty, or it ends with a bar outside parentheses. -/
def StartsBranch (before : List Char) : Prop :=
  before = [] ∨ ∃ front, before = front ++ ['|'] ∧ front.foldl parenDepth 0 = 0

/-- A branch of the signature that has a bar behind it is nothing but white space. -/
def HasBlankBranch (cs : List Char) : Prop :=
  ∃ before gap after, cs = before ++ (gap ++ '|' :: after) ∧ StartsBranch before ∧
    Text.blank gap = true

/-- A piece that a bar ends stands where a branch starts. -/
theorem exists_of_mem_dropLast {cs w : List Char} (h : w ∈ (cutBars 0 cs).dropLast) :
    ∃ before after, cs = before ++ (w ++ '|' :: after) ∧ StartsBranch before := by
  -- by the length, since each step goes behind the first bar
  induction hlength : cs.length using Nat.strong_induction_on generalizing cs with
  | _ n ih =>
    rcases cutBars_cases 0 cs with hwhole | ⟨first, rest, rfl, hlevel, hpieces⟩
    · rw [hwhole] at h
      cases h
    · rw [hpieces, List.dropLast_cons_of_ne_nil (cutBars_ne_nil 0 rest), List.mem_cons] at h
      rcases h with rfl | h
      · exact ⟨[], rest, rfl, .inl rfl⟩
      · have hshorter : rest.length < n := by
          rw [← hlength, List.length_append, List.length_cons]
          omega
        obtain ⟨before, after, rfl, hbefore⟩ := ih _ hshorter h rfl
        refine ⟨first ++ '|' :: before, after, by simp, .inr ?_⟩
        rcases hbefore with rfl | ⟨front, rfl, hfront⟩
        · exact ⟨first, rfl, hlevel⟩
        · refine ⟨first ++ '|' :: front, by simp, ?_⟩
          rw [List.foldl_append, hlevel]
          exact hfront

/-- Where a branch starts, white space with a bar behind it is a piece. -/
theorem mem_dropLast_of_startsBranch {before gap : List Char} (hbefore : StartsBranch before)
    (hgap : Text.blank gap = true) (after : List Char) :
    gap ∈ (cutBars 0 (before ++ (gap ++ '|' :: after))).dropLast := by
  have hwhole : Whole (cutBars 0) gap := by
    refine whole_bars fun c hc => ?_
    have hblank : Text.isBlank c = true := List.all_eq_true.1 hgap c hc
    refine ⟨?_, ?_, ?_⟩ <;> rintro rfl <;> cases hblank
  have hcut : cutBars 0 (gap ++ '|' :: after) = gap :: cutBars 0 after :=
    cuts_bars.cut_append hwhole after
  have hlast := cutBars_ne_nil 0 after
  rcases hbefore with rfl | ⟨front, rfl, hfront⟩
  · rw [List.nil_append, hcut, List.dropLast_cons_of_ne_nil hlast]
    exact List.mem_cons_self
  · rw [List.append_assoc, List.singleton_append, cutBars_append_bar hfront, hcut,
      List.dropLast_append_of_ne_nil (by simp), List.dropLast_cons_of_ne_nil hlast]
    simp

theorem mem_dropLastIf {p : List Char → Bool} {ws : List (List Char)} {w : List Char}
    (hw : p w = true) : w ∈ dropLastIf p ws ↔ w ∈ ws.dropLast := by
  rcases List.eq_nil_or_concat ws with rfl | ⟨front, v, rfl⟩
  · rfl
  · rw [List.concat_eq_append, dropLastIf_concat, List.dropLast_concat]
    by_cases hv : p v = true
    · simp [hv]
    · have hne : w ≠ v := by
        rintro rfl
        exact hv hw
      simp [hv, hne]

/-- **The branches of a signature that are blank** are those with a bar behind them. -/
theorem exists_blank_branch_iff {cs : List Char} :
    (∃ b ∈ branches cs, Text.trim b = []) ↔ HasBlankBranch cs := by
  simp only [branches, Text.trim_eq_nil_iff]
  constructor
  · rintro ⟨gap, hmem, hgap⟩
    obtain ⟨before, after, hcs, hbefore⟩ := exists_of_mem_dropLast ((mem_dropLastIf hgap).1 hmem)
    exact ⟨before, gap, after, hcs, hbefore, hgap⟩
  · rintro ⟨before, gap, after, rfl, hbefore, hgap⟩
    exact ⟨gap, (mem_dropLastIf hgap).2 (mem_dropLast_of_startsBranch hbefore hgap after), hgap⟩

end Signature

namespace Catalogue

open Signature (HasBlankBranch)

/-- The overload stands under the name. -/
def HasOverload (c : Catalogue) (name : String) (o : Overload) : Prop :=
  ∃ os, c.overloads? name = some os ∧ o ∈ os

/-- What stands under a name are the overloads of the records of that name. -/
theorem hasOverload_ofRecords {records : List Record} {name : String} {o : Overload} :
    (ofRecords records).HasOverload name o ↔
      ∃ r ∈ records, r.command = name ∧ o ∈ r.overloads := by
  have hmem : o ∈ (records.filter fun r => r.command = name).flatMap Record.overloads ↔
      ∃ r ∈ records, r.command = name ∧ o ∈ r.overloads := by
    simp [and_assoc]
  rw [HasOverload, overloads?_ofRecords, ← hmem]
  split
  · rename_i hnone
    simp [hnone]
  · simp

/-- An overload has no signature if it comes from a blank branch. -/
theorem signature_ofBranch_eq_empty {r : Record} {b : List Char} :
    (Overload.ofBranch r (Text.trim b)).signature = "" ↔ Text.trim b = [] := by
  rw [Overload.ofBranch, String.ofList_eq_empty_iff]

/-- **Overloads without a signature come from blank branches.**

Under a name every overload has a signature exactly if no record of that name has a branch that is
blank and has a bar behind it; white space behind the last bar makes no overload.  An overload
without a signature has no parameters either.  This is so of the catalogue of any valid records. -/
theorem empty_signature_iff (records : List Record) :
    (∀ name, (∀ o, (ofRecords records).HasOverload name o → o.signature ≠ "") ↔
      ∀ r ∈ records, r.command = name → ¬ HasBlankBranch r.signature.toList) ∧
    (∀ name o, (ofRecords records).HasOverload name o → o.signature = "" → o.parameters = []) ∧
    ∀ v : Value, v.asList Record.ofValue = .ok records → ofValue v = .ok (ofRecords records) := by
  refine ⟨fun name => ?_, fun name o ho hempty => ?_, fun v hv => ?_⟩
  · simp only [hasOverload_ofRecords, ← Signature.exists_blank_branch_iff]
    constructor
    · rintro h r hr hname ⟨b, hb, hblank⟩
      exact h _ ⟨r, hr, hname, List.mem_map_of_mem hb⟩ (signature_ofBranch_eq_empty.2 hblank)
    · rintro h o ⟨r, hr, hname, ho⟩ hempty
      obtain ⟨b, hb, rfl⟩ := List.mem_map.1 ho
      exact h r hr hname ⟨b, hb, signature_ofBranch_eq_empty.1 hempty⟩
  · obtain ⟨r, -, -, ho⟩ := hasOverload_ofRecords.1 ho
    obtain ⟨b, -, rfl⟩ := List.mem_map.1 ho
    rw [Overload.ofBranch, signature_ofBranch_eq_empty.1 hempty]
    rfl
  · rw [ofValue, hv]
    rfl

/-- **Overloads that nothing spells out.**  Before the first bar stands nothing, nor between two of
them, and yet there are overloads for that, which a call of `F` without arguments is held against.
Only what stands behind the last bar is dropped. -/
theorem empty_signatures_occur :
    ∃ v c, v = .list [.table [("signature", .text "| F( <Number> ) | | F( <Point> ) | "),
        ("commandBase", .text "F")]] ∧
      ofValue v = .ok c ∧
      (c.overloads? "F").map (List.map fun o => (o.signature, o.total)) =
        some [("", 0), ("F( <Number> )", 1), ("", 0), ("F( <Point> )", 1)] ∧
      c.bestMatch? "F" 0 = some ⟨"F", [], "", "", [], ""⟩ := by
  refine ⟨_, ofRecords [⟨"| F( <Number> ) | | F( <Point> ) | ", "F", "", [], ""⟩], rfl, rfl,
    ?_, ?_⟩
  · decide +kernel
  · decide +kernel

end Catalogue

end GeoLint
