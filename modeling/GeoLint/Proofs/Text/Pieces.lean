import GeoLint.Proofs.Text.Trim

/-!
# Pieces of a text

A text is cut where its characters satisfy `p`.  Everything here follows from one equation: at such
a character the pieces before it and the pieces behind it come apart (`pieces_append`).  No piece
has a character that cuts (`of_mem_pieces`), a text without one is a single piece
(`pieces_of_forall`), and to cut at two kinds of character is to cut at one kind and then at the
other (`fullPieces_or`).
-/

namespace GeoLint

namespace Text

section Pieces

variable {p : Char → Bool}

/-- **A character that cuts** separates the pieces before it from those behind it. -/
theorem pieces_append {c : Char} (hc : p c = true) (front rest : List Char) :
    pieces p (front ++ c :: rest) = pieces p front ++ pieces p rest := by
  induction front with
  | nil => simp [pieces, hc]
  | cons d front ih =>
    obtain ⟨w, ws, hws⟩ := List.exists_cons_of_ne_nil (pieces_ne_nil p front)
    by_cases hd : p d = true
    · simp [pieces, hd, ih]
    · simp [pieces, hd, ih, hws]

theorem pieces_of_forall {w : List Char} (h : ∀ c ∈ w, p c = false) : pieces p w = [w] := by
  induction w with
  | nil => rfl
  | cons c w ih =>
    obtain ⟨hc, hw⟩ := List.forall_mem_cons.1 h
    simp [pieces, hc, ih hw]

/-- The first piece is the whole text, or it ends at a character that cuts. -/
theorem exists_first (p : Char → Bool) (cs : List Char) : (∀ c ∈ cs, p c = false) ∨
    ∃ w c rest, cs = w ++ c :: rest ∧ p c = true ∧ ∀ d ∈ w, p d = false := by
  cases hrest : cs.dropWhile fun c => !p c with
  | nil => exact .inl (by simpa using hrest)
  | cons c rest =>
    refine .inr ⟨cs.takeWhile fun c => !p c, c, rest, ?_, ?_, fun d hd => ?_⟩
    · rw [← hrest, List.takeWhile_append_dropWhile]
    · have hhead := List.head?_dropWhile_not (fun c => !p c) cs
      simpa [hrest] using hhead
    · simpa using List.mem_takeWhile_imp hd

/-- What holds of texts that are not cut, and passes on to a text from what stands behind the first
character that cuts, holds of all texts. -/
theorem induction_pieces (p : Char → Bool) {P : List Char → Prop}
    (whole : ∀ w, (∀ c ∈ w, p c = false) → P w)
    (cut : ∀ w c rest, (∀ d ∈ w, p d = false) → p c = true → P rest → P (w ++ c :: rest))
    (cs : List Char) : P cs := by
  induction hlength : cs.length using Nat.strong_induction_on generalizing cs with
  | _ n ih =>
    rcases exists_first p cs with hcs | ⟨w, c, rest, rfl, hc, hw⟩
    · exact whole cs hcs
    · have hshorter : rest.length < n := by
        rw [← hlength, List.length_append, List.length_cons]
        omega
      exact cut w c rest hw hc (ih _ hshorter rest rfl)

/-- The characters of a piece are characters of the text, and none of them cuts. -/
theorem of_mem_pieces {cs w : List Char} (h : w ∈ pieces p cs) :
    ∀ c ∈ w, c ∈ cs ∧ p c = false := by
  induction cs using induction_pieces p with
  | whole v hv =>
    rw [pieces_of_forall hv, List.mem_singleton] at h
    subst h
    exact fun c hc => ⟨hc, hv c hc⟩
  | cut v d rest hv hd ih =>
    rw [pieces_append hd, pieces_of_forall hv, List.singleton_append, List.mem_cons] at h
    rcases h with rfl | h
    · exact fun c hc => ⟨by simp [hc], hv c hc⟩
    · intro c hc
      obtain ⟨hmem, hcut⟩ := ih h c hc
      exact ⟨by simp [hmem], hcut⟩

/-! ### Pieces that are not empty -/

theorem of_mem_fullPieces {cs w : List Char} (h : w ∈ fullPieces p cs) :
    w ≠ [] ∧ ∀ c ∈ w, c ∈ cs ∧ p c = false := by
  obtain ⟨hmem, hne⟩ := List.mem_filter.1 h
  exact ⟨by simpa using hne, of_mem_pieces hmem⟩

theorem fullPieces_append {c : Char} (hc : p c = true) (front rest : List Char) :
    fullPieces p (front ++ c :: rest) = fullPieces p front ++ fullPieces p rest := by
  rw [fullPieces, pieces_append hc, List.filter_append]
  rfl

theorem fullPieces_of_forall {w : List Char} (hne : w ≠ []) (h : ∀ c ∈ w, p c = false) :
    fullPieces p w = [w] := by
  rw [fullPieces, pieces_of_forall h, List.filter_cons_of_pos (by simpa using hne),
    List.filter_nil]

theorem fullPieces_nil : fullPieces p [] = [] := rfl

/-- All that does not cut is in the pieces. -/
theorem flatten_fullPieces (p : Char → Bool) (cs : List Char) :
    (fullPieces p cs).flatten = cs.filter fun c => !p c := by
  have hinside {w : List Char} (hw : ∀ c ∈ w, p c = false) :
      (fullPieces p w).flatten = w.filter fun c => !p c := by
    have hall : w.filter (fun c => !p c) = w := List.filter_eq_self.2 fun c hc => by simp [hw c hc]
    by_cases hne : w = []
    · rw [hne, fullPieces_nil, List.flatten_nil, List.filter_nil]
    · rw [fullPieces_of_forall hne hw, hall, List.flatten_singleton]
  induction cs using induction_pieces p with
  | whole w hw => exact hinside hw
  | cut w c rest hw hc ih =>
    rw [fullPieces_append hc, List.flatten_append, hinside hw, ih, List.filter_append,
      List.filter_cons_of_neg (by simp [hc])]

/-- A text with a character that does not cut has a piece. -/
theorem fullPieces_ne_nil {cs : List Char} {c : Char} (hmem : c ∈ cs) (hc : p c = false) :
    fullPieces p cs ≠ [] := by
  intro hnil
  have hkept : c ∈ cs.filter fun c => !p c := List.mem_filter.2 ⟨hmem, by simp [hc]⟩
  rw [← flatten_fullPieces, hnil] at hkept
  cases hkept

theorem fullPieces_congr {q : Char → Bool} {cs : List Char} (h : ∀ c ∈ cs, p c = q c) :
    fullPieces p cs = fullPieces q cs := by
  have hpieces : pieces p cs = pieces q cs := by
    induction cs with
    | nil => rfl
    | cons c cs ih =>
      obtain ⟨hc, hcs⟩ := List.forall_mem_cons.1 h
      rw [pieces, pieces, hc, ih hcs]
  rw [fullPieces, fullPieces, hpieces]

/-- **Cutting at two kinds of character** is cutting at one kind and then at the other. -/
theorem fullPieces_or (p q : Char → Bool) (cs : List Char) :
    fullPieces (fun c => p c || q c) cs = (fullPieces p cs).flatMap (fullPieces q) := by
  have hinside {w : List Char} (hw : ∀ c ∈ w, p c = false) :
      fullPieces (fun c => p c || q c) w = (fullPieces p w).flatMap (fullPieces q) := by
    by_cases hne : w = []
    · rw [hne, fullPieces_nil, fullPieces_nil, List.flatMap_nil]
    · rw [fullPieces_of_forall hne hw, List.flatMap_singleton]
      exact fullPieces_congr fun c hc => by simp [hw c hc]
  induction cs using induction_pieces p with
  | whole w hw => exact hinside hw
  | cut w c rest hw hc ih =>
    rw [fullPieces_append (by simp [hc]), fullPieces_append hc, List.flatMap_append, hinside hw, ih]

end Pieces

end Text

end GeoLint
