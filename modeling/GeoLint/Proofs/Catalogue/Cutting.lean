import GeoLint.Catalogue.Signature
import GeoLint.Proofs.Text.Pieces

/-!
# Cutting a text and putting it together

The notation of signatures is read by cutting: at bars outside parentheses, at commas outside
angle brackets, at white space and at bars.  All these cuts work alike (`Cuts`): the separator
starts a new piece, and every text that is `Whole` goes in front of the piece that follows it.  So
a text put together from whole pieces is cut into these pieces (`Cuts.cut_intercalate`), and where
the pieces stand between spaces they are found once the white space is trimmed
(`Cuts.map_trim_cut`).

The first two of these cuts carry a level along the text, and only at the top level does the
separator cut (`LevelCut`).  What stands before such a separator is cut apart from what stands
behind it (`LevelCut.cut_append`).
-/

namespace GeoLint

namespace Signature

/-! ### Cuts -/

/-- A way to cut texts at a separator. -/
structure Cuts (separator : Char) (cut : List Char → List (List Char)) : Prop where
  /-- The empty text is one empty piece. -/
  nil : cut [] = [[]]
  /-- The separator ends the piece before it. -/
  separator : ∀ cs, cut (separator :: cs) = [] :: cut cs

/-- The text is never cut: whatever follows, it goes in front of the first piece. -/
def Whole (cut : List Char → List (List Char)) (w : List Char) : Prop :=
  ∀ cs, cut (w ++ cs) = w.foldr grow (cut cs)

/-- White space that is never cut. -/
structure Pad (cut : List Char → List (List Char)) (w : List Char) : Prop where
  /-- It is never cut. -/
  whole : Whole cut w
  /-- It is white space. -/
  blank : ∀ c ∈ w, Text.isBlank c = true

theorem mem_of_mem_intercalate {gap : List Char} {ws : List (List Char)} {c : Char}
    (h : c ∈ gap.intercalate ws) : c ∈ gap ∨ ∃ w ∈ ws, c ∈ w := by
  induction ws with
  | nil => simp at h
  | cons w ws ih =>
    cases ws with
    | nil => exact .inr ⟨w, by simp, by simpa using h⟩
    | cons v vs =>
      rw [List.intercalate_cons_cons, List.mem_append, List.mem_append] at h
      rcases h with (hw | hgap) | hrest
      · exact .inr ⟨w, by simp, hw⟩
      · exact .inl hgap
      · exact (ih hrest).imp_right fun ⟨u, hu, hc⟩ => ⟨u, List.mem_cons_of_mem _ hu, hc⟩

theorem foldr_grow (w first : List Char) (rest : List (List Char)) :
    w.foldr grow (first :: rest) = (w ++ first) :: rest := by
  induction w with
  | nil => rfl
  | cons c w ih => simp [ih, grow]

section Whole

variable {cut inside : List Char → List (List Char)} {w : List Char}

theorem whole_of_forall (h : ∀ c ∈ w, ∀ cs, cut (c :: cs) = grow c (cut cs)) : Whole cut w := by
  intro cs
  induction w with
  | nil => rfl
  | cons c w ih =>
    obtain ⟨hc, hw⟩ := List.forall_mem_cons.1 h
    rw [List.cons_append, hc, ih hw, List.foldr_cons]

theorem Whole.append {v : List Char} (hv : Whole cut v) (hw : Whole cut w) :
    Whole cut (v ++ w) := by
  intro cs
  rw [List.append_assoc, hv, hw, List.foldr_append]

/-- A text between brackets is never cut if, inside the brackets, what stands there is not. -/
theorem Whole.enclosed {opening closing : Char}
    (hopening : ∀ cs, cut (opening :: cs) = grow opening (inside cs))
    (hclosing : ∀ cs, inside (closing :: cs) = grow closing (cut cs)) (hw : Whole inside w) :
    Whole cut (opening :: (w ++ [closing])) := by
  intro cs
  rw [List.cons_append, List.append_assoc, hopening, hw, List.singleton_append, hclosing]
  simp [List.foldr_append]

theorem pad_nil : Pad cut [] := ⟨fun _ => rfl, by simp⟩

theorem pad_space (h : ∀ cs, cut (' ' :: cs) = grow ' ' (cut cs)) : Pad cut [' '] :=
  ⟨whole_of_forall (by simpa using h), List.forall_mem_singleton.2 rfl⟩

end Whole

section Cuts

variable {separator : Char} {cut : List Char → List (List Char)} (hcut : Cuts separator cut)

include hcut

theorem Cuts.cut_whole {w : List Char} (hw : Whole cut w) : cut w = [w] := by
  have h := hw []
  rwa [List.append_nil, hcut.nil, foldr_grow, List.append_nil] at h

theorem Cuts.cut_append {w : List Char} (hw : Whole cut w) (cs : List Char) :
    cut (w ++ separator :: cs) = w :: cut cs := by
  rw [hw, hcut.separator, foldr_grow, List.append_nil]

/-- Whole pieces with the separator between them are cut into these pieces. -/
theorem Cuts.cut_intercalate (w : List Char) (ws : List (List Char))
    (h : ∀ v ∈ w :: ws, Whole cut v) : cut ([separator].intercalate (w :: ws)) = w :: ws := by
  induction ws generalizing w with
  | nil => simpa using hcut.cut_whole (h w (by simp))
  | cons v vs ih =>
    obtain ⟨hw, hvs⟩ := List.forall_mem_cons.1 h
    rw [List.intercalate_cons_cons, List.append_assoc, List.singleton_append,
      hcut.cut_append hw, ih v hvs]

/-- White space may stand around the separator and at both ends. -/
theorem Cuts.map_trim_cut {lead before behind trail : List Char} (hlead : Pad cut lead)
    (hbefore : Pad cut before) (hbehind : Pad cut behind) (htrail : Pad cut trail) (w : List Char)
    (ws : List (List Char)) (h : ∀ v ∈ w :: ws, Whole cut v ∧ Text.Solid v) :
    (cut (lead ++ ((before ++ separator :: behind).intercalate (w :: ws) ++ trail))).map
      Text.trim = w :: ws := by
  induction ws generalizing w lead with
  | nil =>
    obtain ⟨hwhole, hsolid⟩ := h w (by simp)
    have hpiece : Whole cut (lead ++ (w ++ trail)) :=
      hlead.whole.append (hwhole.append htrail.whole)
    rw [List.intercalate_singleton, hcut.cut_whole hpiece, List.map_singleton,
      Text.trim_padded hlead.blank hsolid htrail.blank]
  | cons v vs ih =>
    obtain ⟨⟨hwhole, hsolid⟩, hvs⟩ := List.forall_mem_cons.1 h
    have hpiece : Whole cut (lead ++ (w ++ before)) :=
      hlead.whole.append (hwhole.append hbefore.whole)
    -- what stands behind the first separator begins with white space of its own
    have hsplit : lead ++ ((before ++ separator :: behind).intercalate (w :: v :: vs) ++ trail) =
        (lead ++ (w ++ before)) ++ separator ::
          (behind ++ ((before ++ separator :: behind).intercalate (v :: vs) ++ trail)) := by
      simp [List.intercalate_cons_cons]
    rw [hsplit, hcut.cut_append hpiece, List.map_cons,
      Text.trim_padded hlead.blank hsolid hbefore.blank, ih hbehind v hvs]

end Cuts

/-! ### Cuts at the top level -/

theorem grow_append (c : Char) {ws : List (List Char)} (h : ws ≠ []) (vs : List (List Char)) :
    grow c (ws ++ vs) = grow c ws ++ vs := by
  obtain ⟨w, ws, rfl⟩ := List.exists_cons_of_ne_nil h
  rfl

/-- A way to cut texts at the separators that stand at the top level.  The level is that in front of
the text, and each character may change it. -/
structure LevelCut {σ : Type} (separator : Char) (step : σ → Char → σ) (top : σ → Prop)
    (cut : σ → List Char → List (List Char)) : Prop where
  /-- The empty text is one empty piece. -/
  nil : ∀ level, cut level [] = [[]]
  /-- At the top level the separator ends the piece before it. -/
  cuts : ∀ level, top level → ∀ cs, cut level (separator :: cs) = [] :: cut level cs
  /-- Any other character goes in front of the piece that follows. -/
  grows : ∀ level c, ¬ (c = separator ∧ top level) →
    ∀ cs, cut level (c :: cs) = grow c (cut (step level c) cs)
  /-- The separator does not change the level. -/
  step_separator : ∀ level, step level separator = level

section LevelCut

variable {σ : Type} {separator : Char} {step : σ → Char → σ} {top : σ → Prop}
variable {cut : σ → List Char → List (List Char)} (hcut : LevelCut separator step top cut)

include hcut

theorem LevelCut.ne_nil (level : σ) (cs : List Char) : cut level cs ≠ [] := by
  cases cs with
  | nil => simp [hcut.nil]
  | cons c cs =>
    by_cases hc : c = separator ∧ top level
    · rw [hc.1, hcut.cuts level hc.2]
      exact List.cons_ne_nil _ _
    · rw [hcut.grows level c hc]
      cases cut (step level c) cs <;> simp [grow]

/-- **A separator at the top level cuts**: no piece has a part before it and a part behind it. -/
theorem LevelCut.cut_append {level : σ} {front : List Char} (h : top (front.foldl step level))
    (rest : List Char) :
    cut level (front ++ separator :: rest) =
      cut level front ++ cut (front.foldl step level) rest := by
  induction front generalizing level with
  | nil =>
    rw [List.nil_append, hcut.cuts level h, hcut.nil]
    rfl
  | cons c front ih =>
    have ih : cut (step level c) (front ++ separator :: rest) =
        cut (step level c) front ++ cut (front.foldl step (step level c)) rest := ih h
    rw [List.cons_append, List.foldl_cons]
    by_cases hc : c = separator ∧ top level
    · obtain ⟨rfl, htop⟩ := hc
      rw [hcut.step_separator] at ih ⊢
      rw [hcut.cuts level htop, hcut.cuts level htop, ih, List.cons_append]
    · rw [hcut.grows level c hc, hcut.grows level c hc, ih,
        grow_append c (hcut.ne_nil _ front)]

end LevelCut

/-! ### The four cuts of the notation -/

theorem levelCut_bars : LevelCut '|' parenDepth (· = 0) cutBars where
  nil _ := rfl
  cuts level htop cs := by rw [cutBars, if_pos (by simpa using htop)]
  grows level c hc cs := by rw [cutBars, if_neg (by simpa using hc)]
  step_separator _ := rfl

theorem levelCut_commas : LevelCut ',' angleDepth (· = 0) cutCommas where
  nil _ := rfl
  cuts level htop cs := by rw [cutCommas, if_pos (by simpa using htop)]
  grows level c hc cs := by rw [cutCommas, if_neg (by simpa using hc)]
  step_separator _ := rfl

theorem cuts_bars : Cuts '|' (cutBars 0) := ⟨rfl, fun _ => by simp [cutBars]⟩

theorem cuts_commas : Cuts ',' (cutCommas 0) := ⟨rfl, fun _ => by simp [cutCommas]⟩

theorem cuts_pieces {p : Char → Bool} {c : Char} (hc : p c = true) : Cuts c (Text.pieces p) :=
  ⟨rfl, fun _ => by simp [Text.pieces, hc]⟩

theorem whole_bars {depth : Nat} {w : List Char}
    (h : ∀ c ∈ w, c ≠ '(' ∧ c ≠ ')' ∧ (c = '|' → depth ≠ 0)) : Whole (cutBars depth) w := by
  refine whole_of_forall fun c hc cs => ?_
  obtain ⟨hopening, hclosing, hbar⟩ := h c hc
  rw [cutBars, if_neg (by simpa using hbar), parenDepth, if_neg hopening, if_neg hclosing]

theorem whole_commas {depth : Int} {w : List Char}
    (h : ∀ c ∈ w, c ≠ '<' ∧ c ≠ '>' ∧ (c = ',' → depth ≠ 0)) : Whole (cutCommas depth) w := by
  refine whole_of_forall fun c hc cs => ?_
  obtain ⟨hopening, hclosing, hcomma⟩ := h c hc
  rw [cutCommas, if_neg (by simpa using hcomma), angleDepth, if_neg hopening, if_neg hclosing]

theorem whole_pieces {p : Char → Bool} {w : List Char} (h : ∀ c ∈ w, p c = false) :
    Whole (Text.pieces p) w := by
  refine whole_of_forall fun c hc cs => ?_
  rw [Text.pieces, if_neg (by simp [h c hc])]
  rfl

theorem words_append {w : List Char} (hne : w ≠ []) (h : ∀ c ∈ w, Text.isBlank c = false)
    (cs : List Char) : Text.words (w ++ ' ' :: cs) = w :: Text.words cs := by
  rw [Text.words, Text.fullPieces_append rfl, Text.fullPieces_of_forall hne h]
  rfl

theorem words_single {w : List Char} (hne : w ≠ []) (h : ∀ c ∈ w, Text.isBlank c = false) :
    Text.words w = [w] :=
  Text.fullPieces_of_forall hne h

/-- Bars inside parentheses do not cut. -/
theorem whole_parenthesized {w : List Char} (h : ∀ c ∈ w, c ≠ '(' ∧ c ≠ ')') :
    Whole (cutBars 0) ('(' :: (w ++ [')'])) := by
  have hw : Whole (cutBars 1) w := whole_bars fun c hc => by simp [h c hc]
  exact hw.enclosed (fun cs => by simp [cutBars, parenDepth])
    (fun cs => by simp [cutBars, parenDepth])

/-- Commas inside angle brackets do not cut. -/
theorem whole_bracketed {w : List Char} (h : ∀ c ∈ w, c ≠ '<' ∧ c ≠ '>') :
    Whole (cutCommas 0) ('<' :: (w ++ ['>'])) := by
  have hw : Whole (cutCommas 1) w := whole_commas fun c hc => by simp [h c hc]
  exact hw.enclosed (fun cs => by simp [cutCommas, angleDepth])
    (fun cs => by simp [cutCommas, angleDepth])

theorem dropLastIf_concat (p : List Char → Bool) (ws : List (List Char)) (w : List Char) :
    dropLastIf p (ws ++ [w]) = if p w then ws else ws ++ [w] := by
  simp only [dropLastIf, List.getLast?_concat, List.dropLast_concat]

theorem dropLastIf_of_forall {p : List Char → Bool} {ws : List (List Char)}
    (h : ∀ w ∈ ws, p w = false) : dropLastIf p ws = ws := by
  obtain rfl | ⟨front, w, rfl⟩ := List.eq_nil_or_concat ws
  · rfl
  · have hw : p w = false := h w (by simp)
    rw [List.concat_eq_append, dropLastIf_concat, if_neg (by simp [hw])]

end Signature

end GeoLint
