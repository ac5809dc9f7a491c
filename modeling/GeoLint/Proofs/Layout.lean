import GeoLint.Proofs.Syntax.Exchange

/-!
# Layout between tokens

Blanks may be put between any two tokens of a script, and a comment behind blanks where a line ends,
without changing what the script says (`layout_preserves_meaning`).  The tokens keep their kinds,
texts and lines, and so the tree or the complaint stays the same but for columns.

In front of the place nothing changes, since no lexeme goes on at a blank (`scanFrom_exchange`).
Behind it the scanner skips what was put there and starts further right on the same line
(`scanFrom_filler`).  If the script ends there, layout may stand in front of the place that no
token has taken yet, and what is put behind it prolongs it (`IsLayout.prolong`).
-/

namespace GeoLint

/-- The start of the line of a place. -/
def Position.lineStart (p : Position) : Position := ⟨p.line, 1⟩

namespace Token

/-- What may be put between two tokens, in front of `v`: blanks, or blanks and a comment if the line
or the script ends there. -/
inductive Filler (v : List Char) : List Char → Prop
  /-- Blanks. -/
  | blanks {w : List Char} (hw : ∀ c ∈ w, c = ' ' ∨ c = '\t' ∨ c = '\r') : Filler v w
  /-- Blanks and a comment. -/
  | comment {w note : List Char} (hv : v = [] ∨ ∃ more, v = '\n' :: more) (hne : w ≠ [])
    (hw : ∀ c ∈ w, c = ' ' ∨ c = '\t' ∨ c = '\r') (hnote : '\n' ∉ note) :
    Filler v (w ++ '/' :: '/' :: note)

/-- Two places on one line. -/
def SameLine (p p' : Position) : Prop := p'.line = p.line

theorem steady_sameLine : Steady SameLine where
  right _ h := h
  nextLine h := congrArg (· + 1) h

/-! ### Longer layout -/

theorem Filler.breaks {v w : List Char} (h : Filler v w) (hne : w ≠ []) : Breaks (w ++ v) := by
  have hblank : ∀ {bs rest : List Char}, bs ≠ [] → (∀ c ∈ bs, c = ' ' ∨ c = '\t' ∨ c = '\r') →
      Breaks (bs ++ rest) := by
    intro bs rest hbs hall c cs hc
    obtain ⟨b, bs, rfl⟩ := List.exists_cons_of_ne_nil hbs
    obtain ⟨rfl, -⟩ := List.cons.inj hc
    exact .inl ((isSpace_iff _).2 (hall _ List.mem_cons_self))
  cases h with
  | blanks hw => exact hblank hne hw
  | comment _ hblanks hw =>
    rw [List.append_assoc]
    exact hblank hblanks hw

/-- Layout does not start with a line end. -/
theorem IsLayout.eq_nil {skipped rest more : List Char} (h : IsLayout skipped rest)
    (hline : skipped ++ rest = '\n' :: more) : skipped = [] := by
  obtain ⟨blanks, note, rfl, hblanks, hnote⟩ := h
  cases blanks with
  | cons b bs =>
    obtain ⟨rfl, -⟩ := List.cons.inj hline
    exact absurd (hblanks '\n' List.mem_cons_self) (by decide)
  | nil =>
    obtain rfl | ⟨⟨body, rfl, -⟩, -⟩ := hnote
    · rfl
    · exact absurd (List.cons.inj hline).1 (by decide)

/-- What is put in front of layout and a lexeme is skipped with the layout. -/
theorem Filler.isLayout {skipped rest w : List Char} (h : Filler (skipped ++ rest) w)
    (hskipped : IsLayout skipped rest) : IsLayout (w ++ skipped) rest := by
  cases h with
  | blanks hw =>
    obtain ⟨blanks, note, rfl, hblanks, hnote⟩ := hskipped
    refine ⟨w ++ blanks, note, (List.append_assoc _ _ _).symm, fun c hc => ?_, hnote⟩
    exact (List.mem_append.1 hc).elim (hw c) (hblanks c)
  | @comment w note hv _ hw hnote =>
    have hskipped : skipped = [] := by
      obtain hv | ⟨more, hv⟩ := hv
      · exact (List.append_eq_nil_iff.1 hv).1
      · exact hskipped.eq_nil hv
    subst hskipped
    rw [List.nil_append] at hv
    rw [List.append_nil]
    exact ⟨w, _, rfl, hw, .inr ⟨⟨note, rfl, hnote⟩, hv⟩⟩

/-- What is put behind the layout at the end of a script goes on with it. -/
theorem IsLayout.prolong {skipped w : List Char} (h : IsLayout skipped []) (hw : Filler [] w) :
    IsLayout (skipped ++ w) [] := by
  obtain ⟨blanks, note, rfl, hblanks, rfl | ⟨⟨body, rfl, hbody⟩, -⟩⟩ := h
  · rw [List.append_nil]
    cases hw with
    | blanks hw =>
      refine ⟨blanks ++ w, [], (List.append_nil _).symm, fun c hc => ?_, .inl rfl⟩
      exact (List.mem_append.1 hc).elim (hblanks c) (hw c)
    | @comment w note _ _ hw hnote =>
      refine ⟨blanks ++ w, '/' :: '/' :: note, (List.append_assoc _ _ _).symm, fun c hc => ?_,
        .inr ⟨⟨note, rfl, hnote⟩, .inl rfl⟩⟩
      exact (List.mem_append.1 hc).elim (hblanks c) (hw c)
  · -- Inside a comment anything goes on with the comment but a line end.
    have hline : '\n' ∉ w := by
      have hblank : ∀ bs : List Char, (∀ c ∈ bs, c = ' ' ∨ c = '\t' ∨ c = '\r') → '\n' ∉ bs :=
        fun bs hbs hc => absurd (hbs '\n' hc) (by decide)
      cases hw with
      | blanks hw => exact hblank w hw
      | comment _ _ hw hnote => simp [hblank _ hw, hnote]
    refine ⟨blanks, '/' :: '/' :: (body ++ w), by simp, hblanks,
      .inr ⟨⟨body ++ w, rfl, ?_⟩, .inl rfl⟩⟩
    rw [List.mem_append, not_or]
    exact ⟨hbody, hline⟩

/-! ### The tokens -/

/-- What stands in front of the next token only moves it to the right. -/
theorem scanFrom_filler {v w : List Char} (hw : Filler v w) (p : Position) :
    scanFrom ⟨w ++ v, p⟩ = scanFrom ⟨v, p.right w.length⟩ := by
  have hnext : next ⟨w ++ v, p⟩ = next ⟨v, p.right w.length⟩ := by
    have htakes := takes ⟨v, p.right w.length⟩
    have htext := htakes.text
    have hlayout : IsLayout (w ++ layout v) _ := Filler.isLayout (htext ▸ hw) htakes.layout
    have hhere := next_eq hlayout htakes.lexeme p
    have hthere := next_eq htakes.layout htakes.lexeme (p.right w.length)
    rw [← htext] at hthere
    rw [List.append_assoc, ← htext, List.length_append] at hhere
    rw [Position.right_right] at hthere
    exact hhere.trans hthere.symm
  by_cases hending : (next ⟨v, p.right w.length⟩).1.kind = .ending
  · rw [scanFrom_of_ending hending, scanFrom_of_ending (by rw [hnext]; exact hending), hnext]
  · rw [scanFrom_of_ne_ending hending, scanFrom_of_ne_ending (by rw [hnext]; exact hending), hnext]

/-- The tokens stay as they are but for their columns. -/
theorem scanFrom_insert {c : Cursor} {n : Nat} {u v w : List Char} (hc : c.rest = u ++ v)
    (hrest : (advance n c).rest = v)
    (hopen : v = [] → ∀ k, ¬ IsOpen (lexemeText (advance k c))) (hw : Filler v w) :
    List.Forall₂ (Alike SameLine) (scanFrom c).1 (scanFrom ⟨u ++ (w ++ v), c.position⟩).1 ∧
      SameLine (scanFrom c).2 (scanFrom ⟨u ++ (w ++ v), c.position⟩).2 := by
  have hsame : ∀ ts, List.Forall₂ (Alike SameLine) ts ts :=
    fun ts => List.forall₂_same.2 fun t _ => ⟨rfl, rfl, rfl⟩
  by_cases hne : w = []
  · subst hne
    rw [List.nil_append, ← hc]
    exact ⟨hsame _, rfl⟩
  have hbreaks := hw.breaks hne
  obtain ⟨stop, hlayout, hstop, hbefore⟩ := exists_stop c
  by_cases hn : n ≤ stop
  · -- The text is put in front of a token.
    obtain ⟨ts, hhere, hthere⟩ := scanFrom_exchange (y := []) hc hrest
      (fun k hk => hbefore k (hk.trans_le hn)) hopen hbreaks
    have halike := scanFrom_alike steady_sameLine (c := advance n c)
      (p := (advance n c).position.right w.length) rfl
    rw [hrest] at halike
    rw [hhere, hthere, List.nil_append, scanFrom_filler hw]
    exact ⟨List.rel_append (hsame ts) halike.1, halike.2⟩
  · -- The text is put at the end of the script.
    have hv : v = [] := by
      rw [← hrest]
      obtain ⟨m, rfl⟩ := Nat.exists_eq_add_one.2 (Nat.zero_lt_of_lt (not_le.1 hn))
      rw [(advance_ending hstop (by omega)).2, advance_succ]
      exact (next_ending hstop).1
    subst hv
    obtain ⟨ts, hhere, hthere⟩ := scanFrom_exchange (y := (advance stop c).rest) hc
      (List.append_nil _).symm hbefore hopen hbreaks
    rw [List.append_nil] at hthere ⊢
    rw [hhere, hthere, scanFrom_of_isLayout (hlayout.prolong hw),
      show scanFrom (advance stop c) = _ from scanFrom_of_isLayout hlayout _]
    exact ⟨hsame _, rfl⟩

end Token

open Token

/-- **Layout between tokens does not change what a script says.**

Let `v` be what some call of the scanner leaves of a script, and `u` what stands in front of it, not
ending inside a string literal.  Put blanks between them, or blanks and a comment if `v` is empty or
starts with a line end.  Then the tokens have the same kinds, texts and lines, and the parser gives
the same tree or the same error but for columns. -/
theorem layout_preserves_meaning {u v w : String} {n : Nat}
    (hsplit : (cursorAfter (u ++ v) n).rest = v.toList) (hopen : ¬ EndsInLiteral u)
    (hw : Filler v.toList w.toList) :
    (tokenize (u ++ w ++ v)).map (Token.moved .lineStart) =
        (tokenize (u ++ v)).map (Token.moved .lineStart) ∧
      ((Script.parse (u ++ w ++ v)).map (Script.moved .lineStart)).mapError
          (SyntaxError.moved .lineStart) =
        ((Script.parse (u ++ v)).map (Script.moved .lineStart)).mapError
          (SyntaxError.moved .lineStart) := by
  have hinsert := scanFrom_insert (c := .ofSource (u ++ v)) String.toList_append hsplit
    (fun hv k hk => hopen ⟨k, by
      obtain rfl : v = "" := by simpa using hv
      rw [String.append_empty] at hk
      exact hk⟩) hw
  have hsource : (⟨u.toList ++ (w.toList ++ v.toList), (Cursor.ofSource (u ++ v)).position⟩ :
      Cursor) = .ofSource (u ++ w ++ v) := by
    simp [Cursor.ofSource]
  rw [hsource, ← scan_eq, ← scan_eq] at hinsert
  have hplace : ∀ p p', SameLine p p' → Position.lineStart p' = Position.lineStart p :=
    fun p p' h => congrArg (Position.mk · 1) h
  have htokens := Token.map_moved_eq hplace hinsert.1
  have hstop := hplace _ _ hinsert.2
  constructor
  · rw [tokenize, tokenize, List.map_append, List.map_append, htokens]
    congr 1
    exact congrArg (fun p => [Token.final p]) hstop
  · rw [parse_eq, parse_eq, ← Parsing.script_moved, ← Parsing.script_moved, htokens, hstop]

/-- A comment may end the first of two lines. -/
theorem layout_preserves_meaning_comment :
    (cursorAfter ("A = 1" ++ "\nB(A)") 3).rest = "\nB(A)".toList ∧
      ((Script.parse ("A = 1" ++ " // one" ++ "\nB(A)")).map (Script.moved .lineStart)).mapError
          (SyntaxError.moved .lineStart) =
        ((Script.parse ("A = 1" ++ "\nB(A)")).map (Script.moved .lineStart)).mapError
          (SyntaxError.moved .lineStart) := by
  have hsplit : (cursorAfter ("A = 1" ++ "\nB(A)") 3).rest = "\nB(A)".toList := by decide +kernel
  have hopen : ¬ EndsInLiteral "A = 1" := not_endsInLiteral (by simp [IsQuote])
  have hfiller : Filler "\nB(A)".toList " // one".toList :=
    @Filler.comment _ [' '] " one".toList (.inr ⟨_, rfl⟩) (by simp) (by simp) (by simp)
  exact ⟨hsplit, (layout_preserves_meaning hsplit hopen hfiller).2⟩

end GeoLint
