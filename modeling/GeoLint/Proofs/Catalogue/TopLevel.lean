import GeoLint.Proofs.Catalogue.Cutting

/-!
# Separators at the top level

A list of pieces, put together with a separator between each two, is a text, and it says which of
the separators in that text stand between pieces (`Separates`).  The pieces of a text between the
separators that satisfy a condition are `PiecesBetween` them.  The condition leaves no choice
(`PiecesBetween.unique`), and every cut at the top level gives these pieces, with the condition that
what stands before the separator leads to the top level (`LevelCut.piecesBetween`).

`cut_at_top_level` says what this means for the two cuts of the notation: overloads are the pieces
between bars outside parentheses, and slots the pieces between commas outside angle brackets,
without a blank piece at the end.
-/

namespace GeoLint

namespace Signature

/-! ### What it means to cut -/

/-- The separator between `front` and `rest` stands between two pieces: those before it make up
`front`, and those behind it make up `rest`. -/
def Separates (separator : Char) (ws : List (List Char)) (front rest : List Char) : Prop :=
  ∃ us vs, us ≠ [] ∧ vs ≠ [] ∧ ws = us ++ vs ∧ [separator].intercalate us = front ∧
    [separator].intercalate vs = rest

/-- The pieces of a text between those separators that have a text with property `P` before them. -/
structure PiecesBetween (separator : Char) (P : List Char → Prop) (cs : List Char)
    (ws : List (List Char)) : Prop where
  /-- There is a piece. -/
  ne_nil : ws ≠ []
  /-- Put together with the separator, the pieces are the text. -/
  joined : [separator].intercalate ws = cs
  /-- A separator of the text stands between pieces exactly if the text before it satisfies `P`. -/
  separates : ∀ front rest, cs = front ++ separator :: rest →
    (Separates separator ws front rest ↔ P front)

/-- The pieces that are kept: all of them, or all but the last one if that is blank. -/
inductive WithoutBlankEnd : List (List Char) → List (List Char) → Prop
  /-- The last piece is blank. -/
  | dropped {ws : List (List Char)} {w : List Char} (h : Text.blank w = true) :
    WithoutBlankEnd (ws ++ [w]) ws
  /-- The last piece shows something. -/
  | kept {ws : List (List Char)} {w : List Char} (h : Text.blank w = false) :
    WithoutBlankEnd (ws ++ [w]) (ws ++ [w])

/-! ### One way to cut -/

section Separates

variable {separator : Char} {w : List Char} {ws vs : List (List Char)} {front rest : List Char}

theorem joined_cons (h : ws ≠ []) :
    [separator].intercalate (w :: ws) = w ++ separator :: [separator].intercalate ws := by
  rw [List.intercalate_cons_of_ne_nil h, List.append_assoc, List.singleton_append]

theorem joined_append (hws : ws ≠ []) (hvs : vs ≠ []) :
    [separator].intercalate (ws ++ vs) =
      [separator].intercalate ws ++ separator :: [separator].intercalate vs := by
  induction ws with
  | nil => exact absurd rfl hws
  | cons w ws ih =>
    by_cases hlast : ws = []
    · rw [hlast, List.singleton_append, joined_cons hvs, List.intercalate_singleton]
    · rw [List.cons_append, joined_cons (by simp [hlast]), ih hlast, joined_cons hlast,
        List.append_assoc, List.cons_append]

/-- What stands between pieces is a separator of the text that they make up. -/
theorem Separates.joined_eq (h : Separates separator ws front rest) :
    [separator].intercalate ws = front ++ separator :: rest := by
  obtain ⟨us, vs, hus, hvs, rfl, rfl, rfl⟩ := h
  exact joined_append hus hvs

theorem length_le_joined (w : List Char) (ws : List (List Char)) :
    w.length ≤ ([separator].intercalate (w :: ws)).length := by
  cases ws with
  | nil => simp
  | cons v vs =>
    rw [joined_cons (List.cons_ne_nil v vs), List.length_append]
    exact Nat.le_add_right _ _

/-- The first separator that stands between pieces. -/
theorem separates_first (h : ws ≠ []) :
    Separates separator (w :: ws) w ([separator].intercalate ws) :=
  ⟨[w], ws, List.cons_ne_nil _ _, h, rfl, List.intercalate_singleton, rfl⟩

theorem not_separates_singleton : ¬ Separates separator [w] front rest := by
  rintro ⟨us, vs, hus, hvs, hws, -⟩
  obtain ⟨rfl, -⟩ | ⟨us', -, hnil⟩ := List.cons_eq_append_iff.1 hws
  · exact hus rfl
  · exact hvs (List.append_eq_nil_iff.1 hnil.symm).2

/-- No separator stands between pieces before the first piece ends. -/
theorem Separates.length_le (h : Separates separator (w :: ws) front rest) :
    w.length ≤ front.length := by
  obtain ⟨us, vs, hus, -, hws, rfl, -⟩ := h
  obtain ⟨rfl, -⟩ | ⟨us', rfl, -⟩ := List.cons_eq_append_iff.1 hws
  · exact absurd rfl hus
  · exact length_le_joined w us'

/-- Behind the first piece, the others say which separators stand between pieces. -/
theorem separates_cons_iff :
    Separates separator (w :: ws) (w ++ separator :: front) rest ↔
      Separates separator ws front rest := by
  constructor
  · rintro ⟨us, vs, hus, hvs, hws, hfront, hrest⟩
    obtain ⟨rfl, -⟩ | ⟨us', rfl, rfl⟩ := List.cons_eq_append_iff.1 hws
    · exact absurd rfl hus
    · have hne : us' ≠ [] := by
        rintro rfl
        simp at hfront
      rw [joined_cons hne, List.append_cancel_left_eq, List.cons.injEq] at hfront
      exact ⟨us', vs, hne, hvs, rfl, hfront.2, hrest⟩
  · rintro ⟨us, vs, hus, hvs, rfl, rfl, rfl⟩
    exact ⟨w :: us, vs, List.cons_ne_nil _ _, hvs, rfl, joined_cons hus, rfl⟩

/-- Pieces that make up the same text and are separated alike are the same. -/
theorem eq_of_separates_iff (hws : ws ≠ []) (hvs : vs ≠ [])
    (hjoined : [separator].intercalate ws = [separator].intercalate vs)
    (h : ∀ front rest, Separates separator ws front rest ↔ Separates separator vs front rest) :
    ws = vs := by
  induction ws generalizing vs with
  | nil => exact absurd rfl hws
  | cons w ws ih =>
    obtain ⟨v, vs, rfl⟩ := List.exists_cons_of_ne_nil hvs
    by_cases hlast : ws = []
    · subst hlast
      obtain rfl : vs = [] := by
        by_contra hmore
        exact not_separates_singleton ((h _ _).2 (separates_first hmore))
      simpa using hjoined
    · have hfirst := (h _ _).1 (separates_first hlast)
      have hmore : vs ≠ [] := by
        rintro rfl
        exact not_separates_singleton hfirst
      have hlength : w.length = v.length :=
        Nat.le_antisymm ((h _ _).2 (separates_first hmore)).length_le hfirst.length_le
      rw [joined_cons hlast, joined_cons hmore] at hjoined
      obtain ⟨rfl, hrest⟩ := List.append_inj hjoined hlength
      rw [ih hlast hmore (List.cons.inj hrest).2 fun front rest => ?_]
      rw [← separates_cons_iff (w := w), h, separates_cons_iff]

end Separates

/-- **A text has one list of pieces** between the separators with property `P`. -/
theorem PiecesBetween.unique {separator : Char} {P : List Char → Prop} {cs : List Char}
    {ws vs : List (List Char)} (hws : PiecesBetween separator P cs ws)
    (hvs : PiecesBetween separator P cs vs) : ws = vs := by
  refine eq_of_separates_iff hws.ne_nil hvs.ne_nil (hws.joined.trans hvs.joined.symm)
    fun front rest => ?_
  constructor
  · intro h
    have hcs : cs = front ++ separator :: rest := hws.joined.symm.trans h.joined_eq
    exact (hvs.separates front rest hcs).2 ((hws.separates front rest hcs).1 h)
  · intro h
    have hcs : cs = front ++ separator :: rest := hvs.joined.symm.trans h.joined_eq
    exact (hws.separates front rest hcs).2 ((hvs.separates front rest hcs).1 h)

/-! ### Cuts at the top level -/

section LevelCut

variable {σ : Type} {separator : Char} {step : σ → Char → σ} {top : σ → Prop}
variable {cut : σ → List Char → List (List Char)} (hcut : LevelCut separator step top cut)

theorem joined_grow (c : Char) {ws : List (List Char)} (h : ws ≠ []) :
    [separator].intercalate (grow c ws) = c :: [separator].intercalate ws := by
  obtain ⟨w, ws, rfl⟩ := List.exists_cons_of_ne_nil h
  cases ws <;> simp [grow, List.intercalate_cons_cons]

include hcut

/-- Nothing is lost. -/
theorem LevelCut.joined (level : σ) (cs : List Char) :
    [separator].intercalate (cut level cs) = cs := by
  induction cs generalizing level with
  | nil => rw [hcut.nil, List.intercalate_singleton]
  | cons c cs ih =>
    by_cases hc : c = separator ∧ top level
    · rw [hc.1, hcut.cuts level hc.2, joined_cons (hcut.ne_nil level cs), ih, List.nil_append]
    · rw [hcut.grows level c hc, joined_grow c (hcut.ne_nil _ cs), ih]

/-- Where one piece ends and another begins, the level is the top one. -/
theorem LevelCut.top_of_eq_append {level : σ} {cs : List Char} {us vs : List (List Char)}
    (h : cut level cs = us ++ vs) (hus : us ≠ []) (hvs : vs ≠ []) :
    top (([separator].intercalate us).foldl step level) := by
  obtain ⟨u, us, rfl⟩ := List.exists_cons_of_ne_nil hus
  induction cs generalizing level u us with
  | nil =>
    rw [hcut.nil, List.cons_append, List.cons.injEq] at h
    exact absurd (List.append_eq_nil_iff.1 h.2.symm).2 hvs
  | cons c cs ih =>
    by_cases hc : c = separator ∧ top level
    · obtain ⟨rfl, htop⟩ := hc
      rw [hcut.cuts level htop, List.cons_append, List.cons.injEq] at h
      obtain ⟨rfl, h⟩ := h
      cases us with
      | nil => exact htop
      | cons u us =>
        rw [joined_cons (List.cons_ne_nil u us), List.nil_append, List.foldl_cons,
          hcut.step_separator]
        exact ih u us h (List.cons_ne_nil u us)
    · obtain ⟨w, ws, hws⟩ := List.exists_cons_of_ne_nil (hcut.ne_nil (step level c) cs)
      rw [hcut.grows level c hc, hws, grow, List.cons_append, List.cons.injEq] at h
      obtain ⟨rfl, rfl⟩ := h
      have hgrow : (c :: w) :: us = grow c (w :: us) := rfl
      rw [hgrow, joined_grow c (List.cons_ne_nil w us), List.foldl_cons]
      exact ih w us hws (List.cons_ne_nil w us)

/-- **A cut at the top level gives the pieces between the separators at the top level.** -/
theorem LevelCut.piecesBetween (level : σ) (cs : List Char) :
    PiecesBetween separator (fun front => top (front.foldl step level)) cs (cut level cs) where
  ne_nil := hcut.ne_nil level cs
  joined := hcut.joined level cs
  separates front rest hcs := by
    constructor
    · rintro ⟨us, vs, hus, hvs, hws, rfl, -⟩
      exact hcut.top_of_eq_append hws hus hvs
    · intro htop
      exact ⟨_, _, hcut.ne_nil _ _, hcut.ne_nil _ _, by rw [hcs, hcut.cut_append htop],
        hcut.joined _ _, hcut.joined _ _⟩

end LevelCut

/-! ### Overloads and slots -/

theorem foldl_angleDepth (level : Int) (cs : List Char) :
    cs.foldl angleDepth level = level + cs.count '<' - cs.count '>' := by
  induction cs generalizing level with
  | nil => simp
  | cons c cs ih =>
    rw [List.foldl_cons, ih, List.count_cons, List.count_cons]
    grind [angleDepth]

theorem withoutBlankEnd_dropLastIf {ws : List (List Char)} (h : ws ≠ []) :
    WithoutBlankEnd ws (dropLastIf Text.blank ws) := by
  obtain ⟨front, w, rfl⟩ := (List.eq_nil_or_concat ws).resolve_left h
  rw [List.concat_eq_append, dropLastIf_concat]
  split
  · rename_i hw
    exact .dropped hw
  · rename_i hw
    exact .kept (by simpa using hw)

/-- To leave out an empty slot at the end is to leave out a blank piece before trimming. -/
theorem dropLastIf_map_trim (ws : List (List Char)) :
    dropLastIf List.isEmpty (ws.map Text.trim) = (dropLastIf Text.blank ws).map Text.trim := by
  obtain rfl | ⟨front, w, rfl⟩ := List.eq_nil_or_concat ws
  · rfl
  · have hblank : (Text.trim w).isEmpty = Text.blank w := by
      rw [Bool.eq_iff_iff, List.isEmpty_iff, Text.trim_eq_nil_iff]
    rw [List.concat_eq_append, List.map_append, List.map_singleton, dropLastIf_concat,
      dropLastIf_concat, hblank]
    split
    · rfl
    · rw [List.map_append, List.map_singleton]

/-- **Signatures are cut at the separators on the top level, and only layout is lost.**

A bar stands between two pieces of a signature exactly if no parenthesis is open before it, where
one that closes what nothing opened does not count.  Put together with bars, the pieces are the
signature, and its overloads are the pieces but for a blank one at the end.  A comma stands between
two pieces of a parameter list exactly if there are as many opening as closing angle brackets before
it, and its slots are the pieces, trimmed, but for a blank one at the end.  In both cases there is
one such list of pieces.  All this holds of any text, whether or not its brackets are balanced. -/
theorem cut_at_top_level (signature list : List Char) :
    (∃ ws, PiecesBetween '|' (fun front => front.foldl parenDepth 0 = 0) signature ws ∧
      (∀ vs, PiecesBetween '|' (fun front => front.foldl parenDepth 0 = 0) signature vs → vs = ws) ∧
      WithoutBlankEnd ws (branches signature)) ∧
    ∃ ws, PiecesBetween ',' (fun front => front.count '<' = front.count '>') list ws ∧
      (∀ vs, PiecesBetween ',' (fun front => front.count '<' = front.count '>') list vs →
        vs = ws) ∧
      ∃ kept, WithoutBlankEnd ws kept ∧ slots list = kept.map Text.trim := by
  have hbars := levelCut_bars.piecesBetween 0 signature
  have hcommas := levelCut_commas.piecesBetween 0 list
  have hcounts : (fun front : List Char => front.foldl angleDepth 0 = 0) =
      fun front => front.count '<' = front.count '>' := by
    funext front
    rw [foldl_angleDepth, eq_iff_iff]
    omega
  rw [hcounts] at hcommas
  refine ⟨⟨_, hbars, fun vs hvs => hvs.unique hbars, withoutBlankEnd_dropLastIf hbars.ne_nil⟩,
    _, hcommas, fun vs hvs => hvs.unique hcommas, _, withoutBlankEnd_dropLastIf hcommas.ne_nil, ?_⟩
  rw [slots, dropLastIf_map_trim]

-- A parenthesis that nothing opened does not count, and an angle bracket does.
example : branches "F(a|b)|G)||".toList = ["F(a|b)".toList, "G)".toList, []] := by decide

example : slots "<a,b>, c>, d".toList = ["<a,b>".toList, "c>, d".toList] := by decide

end Signature

end GeoLint
