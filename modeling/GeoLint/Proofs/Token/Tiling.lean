import GeoLint.Proofs.Token.Lexeme

/-!
# Successive calls of the scanner

`cursorAfter source n` is where the scanner stands after `n` calls and `tokenAt source n` is what
the next call gives.  The slices that the calls take (`Takes`) lie one behind the other and make
up the whole script: `scanner_tiles_source`.

Each call either moves on or finds the script used up (`next_progress`), so after some number of
calls the final token comes, and then nothing changes any more (`next_of_nil`).  What
`Token.tokenize` lists are the tokens of these calls but the unknown ones (`run_eq`).
-/

namespace GeoLint

namespace Token

/-- The cursor after some more calls. -/
def advance : Nat → Cursor → Cursor
  | 0, c => c
  | n + 1, c => advance n (next c).2

/-- The token that the call after `n` others gives. -/
def upcoming (n : Nat) (c : Cursor) : Token := (next (advance n c)).1

/-- Where the scanner stands after `n` calls. -/
def cursorAfter (source : String) (n : Nat) : Cursor := advance n (.ofSource source)

/-- The token that call `n` gives, counted from zero. -/
def tokenAt (source : String) (n : Nat) : Token := upcoming n (.ofSource source)

/-- The number of characters that the first `n` calls take. -/
def offsetAfter (source : String) (n : Nat) : Nat :=
  source.length - (cursorAfter source n).rest.length

theorem advance_succ (n : Nat) (c : Cursor) : advance (n + 1) c = (next (advance n c)).2 := by
  induction n generalizing c with
  | zero => rfl
  | succ n ih => rw [advance, ih, advance]

theorem cursorAfter_succ (source : String) (n : Nat) :
    cursorAfter source (n + 1) = (next (cursorAfter source n)).2 :=
  advance_succ n _

/-! ### One call -/

theorem next_of_nil {c : Cursor} (h : c.rest = []) : next c = (.final c.position, c) := by
  obtain ⟨rest, p⟩ := c
  obtain rfl : rest = [] := h
  rfl

/-- The final token comes when only layout is left, and stands behind it. -/
theorem next_ending {c : Cursor} (h : (next c).1.kind = .ending) :
    (next c).2.rest = [] ∧ (next c).1 = .final (next c).2.position := by
  obtain ⟨hw, -, hrest⟩ := (takes c).lexeme.eq_nil h
  have htext := (takes c).text
  rw [hw, hrest, List.append_nil, List.append_nil] at htext
  have hnil : (c.forward (layout c.rest).length).rest = [] :=
    List.drop_eq_nil_of_le (congrArg List.length htext).le
  have hnext : next c = (.final (c.forward (layout c.rest).length).position,
      c.forward (layout c.rest).length) := by
    simp only [next, lexeme, hnil]
  exact ⟨hrest, by rw [hnext]⟩

/-- A call moves on, or the script is used up. -/
theorem next_progress (c : Cursor) :
    (next c).2.rest.length < c.rest.length ∨ c.rest = [] ∧ (next c).1.kind = .ending := by
  have hlength := congrArg List.length (takes c).text
  rw [List.length_append, List.length_append] at hlength
  -- The final token may still skip layout, and then its call moves on as well.
  by_cases hkind : (next c).1.kind = .ending
  · have hrest := (next_ending hkind).1
    by_cases hc : c.rest = []
    · exact Or.inr ⟨hc, hkind⟩
    · have hpos := List.length_pos_iff.2 hc
      rw [hrest]
      exact Or.inl hpos
  · have hpos := List.length_pos_iff.2 ((takes c).lexeme.ne_nil hkind)
    exact Or.inl (by omega)

/-! ### All calls -/

/-- The final token repeats. -/
theorem advance_ending {c : Cursor} {n m : Nat} (h : (upcoming n c).kind = .ending) (hm : n ≤ m) :
    upcoming m c = upcoming n c ∧ advance (m + 1) c = advance (n + 1) c := by
  obtain ⟨hrest, hfinal⟩ := next_ending h
  rw [← advance_succ] at hrest hfinal
  induction m, hm using Nat.le_induction with
  | base => exact ⟨rfl, rfl⟩
  | succ m _ ih =>
    constructor
    · rw [upcoming, ih.2, next_of_nil hrest]
      exact hfinal.symm
    · rw [advance_succ, ih.2, next_of_nil hrest]

/-- The first `n` slices and what is left are the whole text. -/
theorem flatMap_slices (c : Cursor) (n : Nat) :
    ((List.range n).flatMap fun k =>
      layout (advance k c).rest ++ lexemeText (advance k c)) ++ (advance n c).rest = c.rest := by
  induction n with
  | zero => rfl
  | succ n ih =>
    have htext := (takes (advance n c)).text
    rw [List.range_succ, List.flatMap_append, List.append_assoc, List.flatMap_singleton,
      advance_succ, List.append_assoc, ← htext, ih]

/-- **The calls list the tokens.**  With as much fuel as there are characters, `run` gives the
tokens up to the first final one, but the unknown ones. -/
theorem run_eq (fuel : Nat) (c : Cursor) (h : c.rest.length ≤ fuel) :
    ∃ stop, (upcoming stop c).kind = .ending ∧ (∀ n < stop, (upcoming n c).kind ≠ .ending) ∧
      run fuel c = (((List.range stop).map (upcoming · c)).filter fun t => t.kind ≠ .unknown,
        (upcoming stop c).position) := by
  induction fuel generalizing c with
  | zero =>
    have hnil : c.rest = [] := List.length_eq_zero_iff.1 (by omega)
    refine ⟨0, ?_, by simp, rfl⟩
    rw [upcoming, advance, next_of_nil hnil]
    rfl
  | succ fuel ih =>
    by_cases hkind : (next c).1.kind = .ending
    · exact ⟨0, hkind, by simp, by simp [run, hkind]; rfl⟩
    · -- Every other call takes a character, so the fuel lasts to the end.
      have hfuel : (next c).2.rest.length ≤ fuel := by
        obtain hlt | ⟨-, hending⟩ := next_progress c
        · omega
        · exact absurd hending hkind
      obtain ⟨stop, hstop, hbefore, hrun⟩ := ih (next c).2 hfuel
      refine ⟨stop + 1, hstop, ?_, ?_⟩
      · intro n hn
        cases n with
        | zero => exact hkind
        | succ n => exact hbefore n (by omega)
      · have hzero : upcoming 0 c = (next c).1 := rfl
        have hsucc : (upcoming · c) ∘ Nat.succ = (upcoming · (next c).2) := rfl
        simp only [run, hkind, if_false, hrun, List.range_succ_eq_map, List.map_cons, List.map_map,
          List.filter_cons, hzero, hsucc]
        by_cases hunknown : (next c).1.kind = .unknown
        · simp [hunknown]; rfl
        · simp [hunknown]; rfl

theorem length_ofSource (source : String) : (Cursor.ofSource source).rest.length = source.length :=
  String.length_toList

/-- The number of characters taken and the number of characters left. -/
theorem offsetAfter_add (source : String) (n : Nat) :
    offsetAfter source n + (cursorAfter source n).rest.length = source.length := by
  have hslices := congrArg List.length (flatMap_slices (.ofSource source) n)
  rw [List.length_append] at hslices
  have hsource := length_ofSource source
  rw [offsetAfter, cursorAfter]
  omega

/-- The final token says no more than where it stands. -/
theorem upcoming_eq_final {n : Nat} {c : Cursor} (h : (upcoming n c).kind = .ending) :
    upcoming n c = .final (upcoming n c).position := by
  have hfinal := (next_ending h).2
  rw [upcoming, hfinal]
  rfl

/-- The tokens of a script are those of the calls up to the first final one. -/
theorem tokenize_eq (source : String) :
    ∃ stop, ((tokenAt source stop).kind = .ending ∧
        ∀ n < stop, (tokenAt source n).kind ≠ .ending) ∧
      tokenize source = ((List.range (stop + 1)).map (tokenAt source)).filter
        fun t => t.kind ≠ .unknown := by
  obtain ⟨stop, hstop, hbefore, hrun⟩ := run_eq source.length (.ofSource source)
    (length_ofSource source).le
  refine ⟨stop, ⟨hstop, hbefore⟩, ?_⟩
  have hlast : [tokenAt source stop].filter (fun t => t.kind ≠ .unknown) =
      [.final (upcoming stop (.ofSource source)).position] := by
    rw [tokenAt, upcoming_eq_final hstop]
    rfl
  rw [List.range_succ, List.map_append, List.filter_append, List.map_singleton, hlast, tokenize,
    scan, hrun]
  rfl

/-- Every token of a script comes from a call. -/
theorem exists_tokenAt {source : String} {t : Token} (h : t ∈ tokenize source) :
    ∃ n, t = tokenAt source n := by
  obtain ⟨stop, -, htokens⟩ := tokenize_eq source
  rw [htokens, List.mem_filter] at h
  obtain ⟨n, -, rfl⟩ := List.mem_map.1 h.1
  exact ⟨n, rfl⟩

/-- **The scanner cuts a script into tokens without losing or repeating a character.**

The calls take slices that lie one behind the other and make up the whole script.  A call moves on,
or finds the script used up and gives the final token; from the first final token on nothing
changes any more.  The tokens up to there, but the unknown ones, are what `tokenize` lists. -/
theorem scanner_tiles_source (source : String) :
    ∃ (stop : Nat) (skipped lexemes : Nat → List Char),
      (∀ n, Takes (cursorAfter source n) (skipped n) (lexemes n)) ∧
      ((List.range (stop + 1)).flatMap fun n => skipped n ++ lexemes n) = source.toList ∧
      (∀ n, cursorAfter source (n + 1) = (next (cursorAfter source n)).2 ∧
        (offsetAfter source n < offsetAfter source (n + 1) ∨
          offsetAfter source n = source.length ∧ (tokenAt source n).kind = .ending)) ∧
      (∀ n m, (tokenAt source n).kind = .ending → n ≤ m →
        tokenAt source m = tokenAt source n ∧
        cursorAfter source (m + 1) = cursorAfter source (n + 1) ∧
        offsetAfter source (m + 1) = source.length) ∧
      ((tokenAt source stop).kind = .ending ∧ ∀ n < stop, (tokenAt source n).kind ≠ .ending) ∧
      tokenize source = ((List.range (stop + 1)).map (tokenAt source)).filter
        fun t => t.kind ≠ .unknown := by
  obtain ⟨stop, hstop, htokens⟩ := tokenize_eq source
  have hused : ∀ n, (tokenAt source n).kind = .ending → (cursorAfter source (n + 1)).rest = [] := by
    intro n hn
    rw [cursorAfter_succ]
    exact (next_ending hn).1
  refine ⟨stop, fun n => layout (cursorAfter source n).rest,
    fun n => lexemeText (cursorAfter source n), fun n => takes _, ?_, ?_, ?_, hstop, htokens⟩
  · have hslices := flatMap_slices (.ofSource source) (stop + 1)
    rw [show (advance (stop + 1) (.ofSource source)).rest = [] from hused stop hstop.1,
      List.append_nil] at hslices
    exact hslices
  · intro n
    refine ⟨cursorAfter_succ source n, ?_⟩
    have hn := offsetAfter_add source n
    have hn' := offsetAfter_add source (n + 1)
    rw [cursorAfter_succ] at hn'
    obtain hlt | ⟨hnil, hkind⟩ := next_progress (cursorAfter source n)
    · exact Or.inl (by omega)
    · rw [hnil, List.length_nil] at hn
      exact Or.inr ⟨by omega, hkind⟩
  · intro n m hn hm
    obtain ⟨htoken, hcursor⟩ := advance_ending hn hm
    have hcursor : cursorAfter source (m + 1) = cursorAfter source (n + 1) := hcursor
    have hoffset := offsetAfter_add source (m + 1)
    rw [hcursor, hused n hn, List.length_nil] at hoffset
    exact ⟨htoken, hcursor, by omega⟩

end Token

end GeoLint
