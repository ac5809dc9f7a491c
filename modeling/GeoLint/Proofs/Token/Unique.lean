import GeoLint.Proofs.Token.Place

/-!
# What the scanner takes is determined by the text

`takes` says that every call of the scanner takes layout and a lexeme.  Here is the converse: a
text that starts with layout and a lexeme leaves the scanner no choice.  `next_eq` gives the whole
call, token and cursor, from `IsLayout` and `IsLexeme` alone.  What a call does to a changed text
can so be read off the description, without another look at the scanner.

Where the scanner stands behind a lexeme depends on the lexeme and on where it starts
(`Position.across`), and not on what follows.
-/

namespace GeoLint

/-- The scanner's own place behind a lexeme that starts at `p`.  Unlike `Position.past` it never
starts a new line behind a backslash. -/
def Position.across : Position → List Char → Position
  | p, [] => p
  | p, ['\\'] => p.right 1
  | p, '\\' :: _ :: cs => across (p.right 2) cs
  | p, c :: cs => across (p.step c) cs

namespace Position

theorem across_plain {c : Char} (h : c ≠ '\\') (p : Position) (cs : List Char) :
    p.across (c :: cs) = (p.step c).across cs := by
  rw [across.eq_def]
  split <;> simp_all

theorem across_escaped (p : Position) (c : Char) (cs : List Char) :
    p.across ('\\' :: c :: cs) = (p.right 2).across cs := rfl

/-- Within a line only the column changes. -/
theorem across_eq_right (p : Position) {cs : List Char} (h : '\n' ∉ cs) :
    p.across cs = p.right cs.length := by
  fun_induction across p cs with
  | case1 => rfl
  | case2 => rfl
  | case3 p c cs ih =>
    rw [ih (by simp_all), right_right, List.length_cons, List.length_cons]
    congr 1
    omega
  | case4 p c cs _ _ ih =>
    rw [List.mem_cons, not_or] at h
    rw [ih h.2, step, if_neg (Ne.symm h.1), right_right, List.length_cons, Nat.add_comm]

end Position

namespace Token

open Decimal (isDigit)

/-! ### Longest matches and layout -/

theorem LongestMatch.unique {p : RegularExpression Char} {cs w w' : List Char}
    (h : LongestMatch p cs w) (h' : LongestMatch p cs w') : w = w' := by
  have hle : w.length ≤ w'.length := h'.2.2 w h.1 h.2.1
  have hge : w'.length ≤ w.length := h.2.2 w' h'.1 h'.2.1
  exact (List.prefix_of_prefix_length_le h.2.1 h'.2.1 hle).eq_of_length (by omega)

/-- In front of a text without layout, layout is all that is skipped. -/
theorem layout_eq {skipped rest : List Char} (h : IsLayout skipped rest) (hrest : NoLayout rest) :
    layout (skipped ++ rest) = skipped := by
  obtain ⟨blanks, note, rfl, hblanks, hnote⟩ := h
  have hspace : ∀ c ∈ blanks, isSpace c = true := fun c hc => (isSpace_iff c).2 (hblanks c hc)
  -- Behind the blanks stands the comment, or what follows the layout.
  have hstop : (note ++ rest).takeWhile isSpace = [] ∧ (note ++ rest).dropWhile isSpace =
      note ++ rest := by
    obtain rfl | ⟨⟨body, rfl, -⟩, -⟩ := hnote
    · cases rest with
      | nil => exact ⟨rfl, rfl⟩
      | cons c rest => simp [hrest.blank c rest rfl]
    · exact ⟨rfl, rfl⟩
  rw [List.append_assoc, layout, List.takeWhile_append_of_pos hspace, hstop.1, List.append_nil,
    List.dropWhile_append_of_pos hspace, hstop.2]
  congr 1
  obtain rfl | ⟨⟨body, rfl, hbody⟩, hline⟩ := hnote
  · exact comment_of_not_isPrefix hrest.comment
  · have hall : ∀ c ∈ '/' :: '/' :: body, (decide (c ≠ '\n')) = true := by
      intro c hc
      refine decide_eq_true ?_
      rintro rfl
      simp_all
    have hnote : ['/', '/'] <+: '/' :: '/' :: body ++ rest := ⟨body ++ rest, rfl⟩
    rw [comment_of_isPrefix hnote, List.takeWhile_append_of_pos hall]
    obtain rfl | ⟨more, rfl⟩ := hline <;> simp

/-! ### The start of a lexeme -/

/-- A digit starts neither layout nor a string literal nor a name. -/
theorem of_isDigit {c : Char} (h : isDigit c = true) :
    isSpace c = false ∧ c ≠ '/' ∧ ¬ IsQuote c := by
  refine ⟨?_, ?_, ?_⟩
  · rw [Bool.eq_false_iff]
    intro hc
    rcases (isSpace_iff c).1 hc with rfl | rfl | rfl <;> exact absurd h (by decide)
  · rintro rfl
    exact absurd h (by decide)
  · rintro (rfl | rfl) <;> exact absurd h (by decide)

/-- A letter starts neither layout nor a string literal nor a number. -/
theorem of_isLetter {c : Char} (h : isLetter c = true) :
    isSpace c = false ∧ c ≠ '/' ∧ ¬ IsQuote c ∧ ∀ cs, startsNumeral (c :: cs) = false := by
  have hdigit : isDigit c = false := by
    rw [Bool.eq_false_iff]
    intro hd
    simp only [isLetter, isDigit, Bool.or_eq_true, Bool.and_eq_true, decide_eq_true_eq,
      Char.le_def, UInt32.le_iff_toNat_le] at h hd
    change 48 ≤ c.toNat ∧ c.toNat ≤ 57 at hd
    rcases h with (h | h) | rfl
    · change 97 ≤ c.toNat ∧ c.toNat ≤ 122 at h
      omega
    · change 65 ≤ c.toNat ∧ c.toNat ≤ 90 at h
      omega
    · revert hd
      decide
  refine ⟨?_, ?_, ?_, fun cs => ?_⟩
  · rw [Bool.eq_false_iff]
    intro hc
    rcases (isSpace_iff c).1 hc with rfl | rfl | rfl <;> exact absurd h (by decide)
  · rintro rfl
    exact absurd h (by decide)
  · rintro (rfl | rfl) <;> exact absurd h (by decide)
  · have hminus : c ≠ '-' := by
      rintro rfl
      exact absurd h (by decide)
    unfold startsNumeral
    split <;> simp_all

/-- A number starts with a digit or a minus. -/
theorem head_of_mem_number {w : List Char} (h : w ∈ Pattern.number.matches') :
    ∃ c cs, w = c :: cs ∧ (isDigit c = true ∨ c = '-') := by
  obtain ⟨m, ds, f, e, rfl, hm, ⟨hne, hds⟩, -⟩ := (mem_number_iff w).1 h
  obtain ⟨d, ds, rfl⟩ := List.exists_cons_of_ne_nil hne
  obtain rfl | rfl := hm
  · exact ⟨d, _, rfl, .inl (hds d List.mem_cons_self)⟩
  · exact ⟨'-', _, rfl, .inr rfl⟩

theorem noLayout_cons {c : Char} {cs : List Char} (hspace : isSpace c = false) (hslash : c ≠ '/') :
    NoLayout (c :: cs) where
  blank d rest h := by
    obtain ⟨rfl, -⟩ := List.cons.inj h
    exact hspace
  comment h := hslash (List.cons_prefix_cons.1 h).1.symm

/-- No lexeme starts like layout. -/
theorem IsLexeme.noLayout {kind : Kind} {w value rest : List Char}
    (h : IsLexeme kind w value rest) : NoLayout (w ++ rest) := by
  cases h with
  | ending => exact ⟨by simp, by simp⟩
  | number hmatch =>
    obtain ⟨c, cs, rfl, hc | rfl⟩ := head_of_mem_number hmatch.1
    · exact noLayout_cons (of_isDigit hc).1 (of_isDigit hc).2.1
    · exact noLayout_cons (by decide) (by decide)
  | identifier hmatch | truth hmatch =>
    obtain ⟨c, cs, rfl, hc, -⟩ := (mem_name_iff _).1 hmatch.1
    exact noLayout_cons (of_isLetter hc).1 (of_isLetter hc).2.1
  | closed hq | unclosed hq =>
    rcases hq with rfl | rfl <;> exact noLayout_cons (by decide) (by decide)
  | single halone =>
    refine ⟨fun c rest heq => ?_, halone.comment⟩
    obtain ⟨rfl, -⟩ := List.cons.inj heq
    rw [Bool.eq_false_iff]
    exact fun hc => halone.blank ((isSpace_iff _).1 hc)

/-! ### String literals -/

theorem IsQuote.ne {q : Char} (h : IsQuote q) : q ≠ '\\' ∧ q ≠ '\n' := by
  rcases h with rfl | rfl <;> decide

theorem across_append_quote {q : Char} {body : List Char} (hq : IsQuote q) (h : Enclosed q body)
    (p : Position) : p.across (body ++ [q]) = (p.across body).right 1 := by
  induction h generalizing p with
  | nil =>
    rw [List.nil_append, Position.across_plain hq.ne.1, Position.step, if_neg hq.ne.2]
    rfl
  | plain _ hc _ ih =>
    rw [List.cons_append, Position.across_plain hc, ih, Position.across_plain hc]
  | escaped _ ih => exact ih _

theorem literal_quote (q : Char) (cs : List Char) (p : Position) :
    literal q (q :: cs) p = ([], ⟨cs, p.right 1⟩) := by
  rw [literal.eq_def]
  simp

theorem literal_plain {q c : Char} (hq : c ≠ q) (hc : c ≠ '\\') (cs : List Char) (p : Position) :
    literal q (c :: cs) p = (c :: (literal q cs (p.step c)).1, (literal q cs (p.step c)).2) := by
  rw [literal.eq_def]
  simp only [if_neg hq, if_neg hc]
  rfl

theorem literal_escaped {q : Char} (hq : q ≠ '\\') (c : Char) (cs : List Char) (p : Position) :
    literal q ('\\' :: c :: cs) p =
      (unescape c :: (literal q cs (p.right 2)).1, (literal q cs (p.right 2)).2) := by
  rw [literal.eq_def]
  simp only [if_neg hq.symm, if_true]

/-- A string literal with its closing quote is taken as it stands, whatever follows. -/
theorem literal_closed {q : Char} {body : List Char} (hq : IsQuote q) (h : Enclosed q body)
    (rest : List Char) (p : Position) :
    literal q (body ++ q :: rest) p = (unescaped body, ⟨rest, p.across (body ++ [q])⟩) := by
  rw [across_append_quote hq h]
  induction h generalizing p with
  | nil => exact literal_quote q rest p
  | plain hcq hc _ ih =>
    rw [List.cons_append, literal_plain hcq hc, ih, unescaped_plain hc, Position.across_plain hc]
  | escaped _ ih =>
    rw [List.cons_append, List.cons_append, literal_escaped hq.ne.1, ih, unescaped_escaped,
      Position.across_escaped]

/-- A string literal that nothing closes is taken up to the end of the script. -/
theorem literal_unclosed {q : Char} {body : List Char} (hq : IsQuote q) (h : Unclosed q body)
    (p : Position) : literal q body p = (unescaped body, ⟨[], p.across body⟩) := by
  -- What is left at the end is nothing, or the backslash that nothing follows.
  have hend : ∀ cs tail, Enclosed q cs → tail = [] ∨ tail = ['\\'] → ∀ p,
      literal q (cs ++ tail) p = (unescaped (cs ++ tail), ⟨[], p.across (cs ++ tail)⟩) := by
    intro cs tail hcs htail
    induction hcs with
    | nil =>
      intro p
      obtain rfl | rfl := htail
      · rfl
      · rw [List.nil_append, literal.eq_def]
        simp only [if_neg hq.ne.1.symm, if_true]
        rfl
    | plain hcq hc _ ih =>
      intro p
      rw [List.cons_append, literal_plain hcq hc, ih, unescaped_plain hc, Position.across_plain hc]
    | escaped _ ih =>
      intro p
      rw [List.cons_append, List.cons_append, literal_escaped hq.ne.1, ih, unescaped_escaped,
        Position.across_escaped]
  obtain h | ⟨cs, rfl, h⟩ := h
  · simpa using hend body [] h (.inl rfl) p
  · exact hend cs ['\\'] h (.inr rfl) p

/-! ### One call -/

theorem lexeme_number {w rest : List Char} (h : LongestMatch Pattern.number (w ++ rest) w)
    (p : Position) : lexeme ⟨w ++ rest, p⟩ =
      (⟨.number, String.ofList w, p⟩, ⟨rest, p.right w.length⟩) := by
  have hstarts : startsNumeral (w ++ rest) = true := startsNumeral_of_isPrefix h.1 h.2.1
  have hnumeral : numeral (w ++ rest) = w := (longestMatch_numeral hstarts).unique h
  obtain ⟨c, cs, rfl, hc⟩ := head_of_mem_number h.1
  have hquote : ¬ IsQuote c := by
    obtain hc | rfl := hc
    · exact (of_isDigit hc).2.2
    · rintro (h | h) <;> exact absurd h (by decide)
  have hquote : (c = '\x22' || c = '\x27') = false := by simpa [IsQuote] using hquote
  simp only [List.cons_append] at hstarts hnumeral
  simp only [lexeme, List.cons_append, hquote, Bool.false_eq_true, if_false, hstarts, if_true,
    taken, hnumeral, Cursor.forward]
  simp

theorem lexeme_name {w rest : List Char} (h : LongestMatch Pattern.name (w ++ rest) w)
    (p : Position) : lexeme ⟨w ++ rest, p⟩ =
      (⟨nameKind w, String.ofList w, p⟩, ⟨rest, p.right w.length⟩) := by
  obtain ⟨c, cs, rfl, hc, -⟩ := (mem_name_iff w).1 h.1
  have hname : name (c :: cs ++ rest) = c :: cs := (longestMatch_name _ hc).unique h
  obtain ⟨-, -, hquote, hnumber⟩ := of_isLetter hc
  have hquote : (c = '\x22' || c = '\x27') = false := by simpa [IsQuote] using hquote
  simp only [List.cons_append] at hname
  simp only [lexeme, List.cons_append, hquote, hnumber, Bool.false_eq_true, if_false, hc, if_true,
    taken, hname, Cursor.forward]
  simp

theorem lexeme_quote {q : Char} (hq : IsQuote q) (cs : List Char) (p : Position) :
    lexeme ⟨q :: cs, p⟩ = (⟨.text, String.ofList (literal q cs (p.right 1)).1, p⟩,
      (literal q cs (p.right 1)).2) := by
  have hquote : (q = '\x22' || q = '\x27') = true := by simpa [IsQuote] using hq
  simp only [lexeme, hquote, if_true]

theorem lexeme_alone {c : Char} {rest : List Char} (h : Alone c rest) (p : Position) :
    lexeme ⟨c :: rest, p⟩ = (⟨.ofChar c, String.ofList [c], p⟩, ⟨rest, p.step c⟩) := by
  have hquote : (c = '\x22' || c = '\x27') = false := by simpa [IsQuote] using h.quote
  have hnumber : startsNumeral (c :: rest) = false := by
    rw [Bool.eq_false_iff]
    intro hc
    exact h.number _ (numeral_mem_number hc) (numeral_isPrefix _)
  have hname : isLetter c = false := by
    rw [Bool.eq_false_iff]
    intro hc
    have hmatch := longestMatch_name rest hc
    exact h.name _ hmatch.1 hmatch.2.1
  by_cases hline : c = '\n'
  · subst hline
    simp only [lexeme, hquote, hnumber, hname, Bool.false_eq_true, if_false, if_true,
      Position.step]
    exact Prod.ext rfl rfl
  · simp only [lexeme, hquote, hnumber, hname, Bool.false_eq_true, if_false, hline, taken,
      Position.step, Cursor.forward]
    rfl

theorem nameKind_eq {w : List Char} :
    nameKind w = if w ∈ truthWords then .truth else .identifier := by
  simp only [nameKind, truthWords, List.mem_cons, List.not_mem_nil, or_false, Bool.or_eq_true,
    decide_eq_true_eq]

/-- Where a lexeme stands, the scanner takes it. -/
theorem lexeme_eq {kind : Kind} {w value rest : List Char} (h : IsLexeme kind w value rest)
    (p : Position) : lexeme ⟨w ++ rest, p⟩ =
      (⟨kind, String.ofList value, p⟩, ⟨rest, p.across w⟩) := by
  -- Only string literals and line ends hold a line end.
  have hright : ∀ w, '\n' ∉ w → p.across w = p.right w.length :=
    fun w hw => Position.across_eq_right p hw
  cases h with
  | ending => rfl
  | number hmatch =>
    have hstarts := startsNumeral_of_isPrefix hmatch.1 hmatch.2.1
    have hnumeral := (longestMatch_numeral hstarts).unique hmatch
    rw [lexeme_number hmatch, hright _ (hnumeral ▸ not_mem_numeral _ hstarts)]
  | identifier hmatch hw =>
    have hbreak : '\n' ∉ w := by
      obtain ⟨c, cs, rfl, hc, -⟩ := (mem_name_iff w).1 hmatch.1
      exact ((longestMatch_name _ hc).unique hmatch) ▸ not_mem_name _
    rw [lexeme_name hmatch, hright _ hbreak, nameKind_eq, if_neg hw]
  | truth hmatch hw =>
    have hbreak : '\n' ∉ w := by
      obtain ⟨c, cs, rfl, hc, -⟩ := (mem_name_iff w).1 hmatch.1
      exact ((longestMatch_name _ hc).unique hmatch) ▸ not_mem_name _
    rw [lexeme_name hmatch, hright _ hbreak, nameKind_eq, if_pos hw]
  | @closed q body _ hq hbody =>
    have hstart : p.across (q :: (body ++ [q])) = (p.right 1).across (body ++ [q]) := by
      rw [Position.across_plain hq.ne.1, Position.step, if_neg hq.ne.2]
    rw [List.cons_append, List.append_assoc, List.singleton_append, lexeme_quote hq,
      literal_closed hq hbody, hstart]
  | @unclosed q body hq hbody =>
    have hstart : p.across (q :: body) = (p.right 1).across body := by
      rw [Position.across_plain hq.ne.1, Position.step, if_neg hq.ne.2]
    rw [List.append_nil, lexeme_quote hq, literal_unclosed hq hbody, hstart]
  | @single c _ halone =>
    have hplace : p.across [c] = p.step c := by
      by_cases hc : c = '\\'
      · subst hc
        rfl
      · rw [Position.across_plain hc]
        rfl
    rw [List.singleton_append, lexeme_alone halone, hplace]

/-- **The call of the scanner at layout and a lexeme.** -/
theorem next_eq {kind : Kind} {skipped w value rest : List Char}
    (hskipped : IsLayout skipped (w ++ rest)) (hw : IsLexeme kind w value rest) (p : Position) :
    next ⟨skipped ++ (w ++ rest), p⟩ =
      (⟨kind, String.ofList value, p.right skipped.length⟩,
        ⟨rest, (p.right skipped.length).across w⟩) := by
  rw [next, layout_eq hskipped hw.noLayout, Cursor.forward, List.drop_left, lexeme_eq hw]

/-- What a call gives from another place is the same but for the place. -/
theorem next_at (c : Cursor) (p : Position) :
    next ⟨c.rest, p⟩ =
      (⟨(next c).1.kind, (next c).1.text, p.right (layout c.rest).length⟩,
        ⟨(next c).2.rest, (p.right (layout c.rest).length).across (lexemeText c)⟩) := by
  have htakes := takes c
  have hnext := next_eq htakes.layout htakes.lexeme p
  rwa [← htakes.text, String.ofList_toList] at hnext

end Token

end GeoLint
