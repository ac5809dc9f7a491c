import GeoLint.Proofs.Token.Pattern

/-!
# Layout and lexemes

What the scanner takes for one token is a slice of the script: layout that is skipped, then the
lexeme.  `IsLayout` and `IsLexeme` say which texts these are, in terms of the text alone:

* layout is spaces, tabs and carriage returns, and a comment that runs to the end of its line;
* a number or a name is the longest text that matches its pattern;
* a string literal runs to the first quote that is not escaped, or to the end of the script;
* any other character that starts none of these, nor layout, is a lexeme by itself.

`takes` is the main statement: every call of the scanner takes such a slice.
-/

namespace GeoLint

namespace Token

open Decimal (isDigit)

/-! ### What a slice is -/

/-- `skipped` may be skipped in front of `rest`: blanks, then perhaps a comment, behind which the
line or the script ends. -/
def IsLayout (skipped rest : List Char) : Prop :=
  ∃ blanks note, skipped = blanks ++ note ∧ (∀ c ∈ blanks, c = ' ' ∨ c = '\t' ∨ c = '\r') ∧
    (note = [] ∨ (∃ body, note = '/' :: '/' :: body ∧ '\n' ∉ body) ∧
      (rest = [] ∨ ∃ more, rest = '\n' :: more))

/-- What may stand between two quotes `q`: a quote only behind a backslash. -/
inductive Enclosed (q : Char) : List Char → Prop
  /-- Nothing. -/
  | nil : Enclosed q []
  /-- A character that stands for itself. -/
  | plain {c : Char} {cs : List Char} :
    c ≠ q → c ≠ '\\' → Enclosed q cs → Enclosed q (c :: cs)
  /-- Any character behind a backslash. -/
  | escaped {c : Char} {cs : List Char} : Enclosed q cs → Enclosed q ('\\' :: c :: cs)

/-- What stands behind a quote `q` that nothing closes: the script may also end in a backslash. -/
def Unclosed (q : Char) (body : List Char) : Prop :=
  Enclosed q body ∨ ∃ cs, body = cs ++ ['\\'] ∧ Enclosed q cs

/-- What the text of a string literal stands for.  A backslash that nothing follows stands for
nothing. -/
def unescaped : List Char → List Char
  | [] => []
  | ['\\'] => []
  | '\\' :: c :: cs => unescape c :: unescaped cs
  | c :: cs => c :: unescaped cs

/-- Either of the two quotes. -/
def IsQuote (q : Char) : Prop := q = '\x22' ∨ q = '\x27'

/-- At `c`, with `rest` behind it, start neither layout nor a string literal, number or name. -/
structure Alone (c : Char) (rest : List Char) : Prop where
  /-- No blank. -/
  blank : ¬ (c = ' ' ∨ c = '\t' ∨ c = '\r')
  /-- No comment. -/
  comment : ¬ ['/', '/'] <+: c :: rest
  /-- No string literal. -/
  quote : ¬ IsQuote c
  /-- No number. -/
  number : ∀ w ∈ Pattern.number.matches', ¬ w <+: c :: rest
  /-- No name. -/
  name : ∀ w ∈ Pattern.name.matches', ¬ w <+: c :: rest

/-- The names that are truth values. -/
def truthWords : List (List Char) := ["true".toList, "false".toList]

/-- `IsLexeme kind w value rest`: in front of `rest`, the text `w` is a lexeme of this kind, and
its token has the text `value`. -/
inductive IsLexeme : Kind → List Char → List Char → List Char → Prop
  /-- The end of the script. -/
  | ending : IsLexeme .ending [] [] []
  /-- A number. -/
  | number {w rest : List Char} :
    LongestMatch Pattern.number (w ++ rest) w → IsLexeme .number w w rest
  /-- A name. -/
  | identifier {w rest : List Char} :
    LongestMatch Pattern.name (w ++ rest) w → w ∉ truthWords → IsLexeme .identifier w w rest
  /-- A truth value. -/
  | truth {w rest : List Char} :
    LongestMatch Pattern.name (w ++ rest) w → w ∈ truthWords → IsLexeme .truth w w rest
  /-- A string literal with its closing quote. -/
  | closed {q : Char} {body rest : List Char} :
    IsQuote q → Enclosed q body → IsLexeme .text (q :: (body ++ [q])) (unescaped body) rest
  /-- A string literal that the end of the script cuts off. -/
  | unclosed {q : Char} {body : List Char} :
    IsQuote q → Unclosed q body → IsLexeme .text (q :: body) (unescaped body) []
  /-- A character by itself. -/
  | single {c : Char} {rest : List Char} :
    Alone c rest → IsLexeme (.ofChar c) [c] [c] rest

/-! ### Layout -/

theorem isSpace_iff (c : Char) : isSpace c = true ↔ c = ' ' ∨ c = '\t' ∨ c = '\r' := by
  simp [isSpace, or_assoc]

/-- No layout starts here. -/
structure NoLayout (cs : List Char) : Prop where
  /-- No blank. -/
  blank : ∀ c rest, cs = c :: rest → isSpace c = false
  /-- No comment. -/
  comment : ¬ ['/', '/'] <+: cs

theorem comment_of_isPrefix {cs : List Char} (h : ['/', '/'] <+: cs) :
    comment cs = cs.takeWhile (· ≠ '\n') := by
  obtain ⟨rest, rfl⟩ := h
  rfl

theorem comment_of_not_isPrefix {cs : List Char} (h : ¬ ['/', '/'] <+: cs) : comment cs = [] := by
  unfold comment
  split
  · exact absurd ⟨_, rfl⟩ h
  · rfl

theorem drop_length_takeWhile (p : Char → Bool) (cs : List Char) :
    cs.drop (cs.takeWhile p).length = cs.dropWhile p := by
  have h := congrArg (List.drop (cs.takeWhile p).length)
    (List.takeWhile_append_dropWhile (p := p) (l := cs))
  rw [List.drop_left] at h
  exact h.symm

theorem eq_false_of_dropWhile {p : Char → Bool} {cs rest : List Char} {c : Char}
    (h : cs.dropWhile p = c :: rest) : p c = false := by
  have hhead := List.head?_dropWhile_not p cs
  rw [h] at hhead
  simpa using hhead

/-- The text behind the layout. -/
theorem drop_layout (cs : List Char) : cs.drop (layout cs).length =
    (cs.dropWhile isSpace).drop (comment (cs.dropWhile isSpace)).length := by
  rw [layout, List.length_append, ← List.drop_drop, drop_length_takeWhile]

theorem comment_isPrefix (cs : List Char) : comment cs <+: cs := by
  unfold comment
  split
  · exact List.takeWhile_prefix _
  · simp

theorem layout_isPrefix (cs : List Char) : layout cs <+: cs := by
  refine append_isPrefix (List.takeWhile_prefix _) ?_
  rw [drop_length_takeWhile]
  exact comment_isPrefix _

/-- The scanner skips all the layout there is, and nothing else. -/
theorem isLayout_layout (cs : List Char) :
    IsLayout (layout cs) (cs.drop (layout cs).length) ∧ NoLayout (cs.drop (layout cs).length) := by
  have hblanks : ∀ c ∈ cs.takeWhile isSpace, c = ' ' ∨ c = '\t' ∨ c = '\r' := fun c hc =>
    (isSpace_iff c).1 (List.all_eq_true.1 List.all_takeWhile c hc)
  have hnospace : ∀ c rest, cs.dropWhile isSpace = c :: rest → isSpace c = false :=
    fun c rest h => eq_false_of_dropWhile h
  rw [drop_layout, layout]
  generalize cs.dropWhile isSpace = ds at hnospace
  by_cases hds : ['/', '/'] <+: ds
  · -- behind the comment stands the end of the line or of the script
    have hline : ∀ c rest, ds.dropWhile (· ≠ '\n') = c :: rest → c = '\n' := by
      intro c rest h
      simpa using eq_false_of_dropWhile h
    rw [comment_of_isPrefix hds, drop_length_takeWhile]
    refine ⟨⟨_, _, rfl, hblanks, Or.inr ⟨?_, ?_⟩⟩, ?_, ?_⟩
    · obtain ⟨rest, rfl⟩ := hds
      exact ⟨rest.takeWhile (· ≠ '\n'), rfl, fun h => by
        simpa using List.all_eq_true.1 List.all_takeWhile _ h⟩
    · cases h : ds.dropWhile (· ≠ '\n') with
      | nil => exact Or.inl rfl
      | cons c rest => exact Or.inr ⟨rest, by rw [hline c rest h]⟩
    · intro c rest h
      rw [hline c rest h]
      rfl
    · rintro ⟨rest, h⟩
      exact absurd (hline _ _ h.symm) (by decide)
  · rw [comment_of_not_isPrefix hds, List.length_nil, List.drop_zero]
    exact ⟨⟨_, _, rfl, hblanks, Or.inl rfl⟩, hnospace, hds⟩

/-! ### String literals -/

theorem unescaped_plain {c : Char} (h : c ≠ '\\') (cs : List Char) :
    unescaped (c :: cs) = c :: unescaped cs := by
  rw [unescaped.eq_def]
  split <;> simp_all

theorem unescaped_escaped (c : Char) (cs : List Char) :
    unescaped ('\\' :: c :: cs) = unescape c :: unescaped cs := rfl

theorem Unclosed.plain {q c : Char} {cs : List Char} (hq : c ≠ q) (hc : c ≠ '\\')
    (h : Unclosed q cs) : Unclosed q (c :: cs) := by
  obtain h | ⟨ds, rfl, h⟩ := h
  · exact Or.inl (.plain hq hc h)
  · exact Or.inr ⟨c :: ds, rfl, .plain hq hc h⟩

theorem Unclosed.escaped {q c : Char} {cs : List Char} (h : Unclosed q cs) :
    Unclosed q ('\\' :: c :: cs) := by
  obtain h | ⟨ds, rfl, h⟩ := h
  · exact Or.inl (.escaped h)
  · exact Or.inr ⟨'\\' :: c :: ds, rfl, .escaped h⟩

/-- **A string literal runs to its closing quote or to the end of the script**, and stands for the
text up to there with its escapes resolved. -/
theorem literal_spec (q : Char) (cs : List Char) (p : Position) :
    (∃ body, Enclosed q body ∧ cs = body ++ q :: (literal q cs p).2.rest ∧
      (literal q cs p).1 = unescaped body) ∨
    Unclosed q cs ∧ (literal q cs p).2.rest = [] ∧ (literal q cs p).1 = unescaped cs := by
  -- The cases: the end, the closing quote, a last backslash, an escape, any other character.
  fun_induction literal q cs p with
  | case1 p => exact Or.inr ⟨Or.inl .nil, rfl, rfl⟩
  | case2 cs p => exact Or.inl ⟨[], .nil, rfl, rfl⟩
  | case3 p hq => exact Or.inr ⟨Or.inr ⟨[], rfl, .nil⟩, rfl, rfl⟩
  | case4 p e cs v after hrec hq ih =>
    rw [hrec] at ih
    obtain ⟨body, hbody, hcs, hv⟩ | ⟨hcs, hafter, hv⟩ := ih
    · refine Or.inl ⟨'\\' :: e :: body, .escaped hbody, by simp [← hcs], ?_⟩
      rw [unescaped_escaped, ← hv]
    · refine Or.inr ⟨hcs.escaped, hafter, ?_⟩
      rw [unescaped_escaped, ← hv]
  | case5 c cs p hq hc v after hrec ih =>
    simp only [hrec] at ih
    obtain ⟨body, hbody, hcs, hv⟩ | ⟨hcs, hafter, hv⟩ := ih
    · refine Or.inl ⟨c :: body, .plain hq hc hbody, by simp [← hcs], ?_⟩
      rw [unescaped_plain hc, ← hv]
    · refine Or.inr ⟨hcs.plain hq hc, hafter, ?_⟩
      rw [unescaped_plain hc, ← hv]

/-! ### One call -/

theorem startsNumeral_of_isPrefix {w cs : List Char} (hw : w ∈ Pattern.number.matches')
    (hcs : w <+: cs) : startsNumeral cs = true := by
  obtain ⟨m, ds, f, e, rfl, hm, ⟨hne, hds⟩, -⟩ := (mem_number_iff w).1 hw
  obtain ⟨rest, rfl⟩ := hcs
  obtain ⟨d, ds, rfl⟩ := List.exists_cons_of_ne_nil hne
  have hd : isDigit d = true := hds d List.mem_cons_self
  rw [startsNumeral_iff]
  obtain rfl | rfl := hm
  · rw [List.nil_append, List.cons_append, List.cons_append, minus_digit hd]
    simp [digits, hd]
  · simp [minus, digits, hd]

theorem isLetter_of_isPrefix {w cs : List Char} {c : Char} (hw : w ∈ Pattern.name.matches')
    (hcs : w <+: c :: cs) : isLetter c = true := by
  obtain ⟨d, ds, rfl, hd, -⟩ := (mem_name_iff w).1 hw
  rw [List.cons_prefix_cons] at hcs
  exact hcs.1 ▸ hd

/-- A character at which the scanner starts nothing longer is alone. -/
theorem alone_of {c : Char} {rest : List Char} (hlayout : NoLayout (c :: rest))
    (hquote : ¬ IsQuote c) (hnumber : startsNumeral (c :: rest) = false)
    (hname : isLetter c = false) : Alone c rest where
  blank h := by
    have hc := hlayout.blank c rest rfl
    rw [(isSpace_iff c).2 h] at hc
    exact Bool.noConfusion hc
  comment := hlayout.comment
  quote := hquote
  number w hw hcs := by
    rw [startsNumeral_of_isPrefix hw hcs] at hnumber
    exact Bool.noConfusion hnumber
  name w hw hcs := by
    rw [isLetter_of_isPrefix hw hcs] at hname
    exact Bool.noConfusion hname

/-- The lexeme of a name. -/
theorem isLexeme_name {w rest : List Char} (h : LongestMatch Pattern.name (w ++ rest) w) :
    IsLexeme (nameKind w) w w rest := by
  have hwords : w ∈ truthWords ↔ (w = "true".toList || w = "false".toList) = true := by
    simp only [truthWords, List.mem_cons, List.not_mem_nil, or_false, Bool.or_eq_true,
      decide_eq_true_eq]
  unfold nameKind
  split_ifs with hw
  · exact .truth h (hwords.2 hw)
  · exact .identifier h fun hmem => hw (hwords.1 hmem)

/-- Where no layout stands, the scanner takes a lexeme. -/
theorem exists_lexeme {c : Cursor} (h : NoLayout c.rest) :
    ∃ w, c.rest = w ++ (lexeme c).2.rest ∧
      IsLexeme (lexeme c).1.kind w (lexeme c).1.text.toList (lexeme c).2.rest := by
  have htaken : ∀ w, w <+: c.rest → c.rest = w ++ (c.forward w.length).rest := by
    rintro w ⟨rest, hrest⟩
    rw [Cursor.forward, ← hrest, List.drop_left]
  unfold lexeme
  split
  · rename_i hnil
    exact ⟨[], by simp, by rw [hnil]; exact .ending⟩
  · rename_i ch cs hcs
    rw [hcs] at h htaken ⊢
    have halone (hquote : ¬ (ch = '\x22' || ch = '\x27') = true)
        (hnumber : ¬ startsNumeral (ch :: cs) = true) (hname : ¬ isLetter ch = true) :
        Alone ch cs :=
      alone_of h (by simpa [IsQuote] using hquote) (by simpa using hnumber) (by simpa using hname)
    -- The branches of the scanner; what passes all tests for something longer is alone.
    split_ifs with hquote hnumber hname hline
    · have hq : IsQuote ch := by simpa [IsQuote] using hquote
      obtain ⟨body, hbody, heq, hv⟩ | ⟨hbody, hafter, hv⟩ :=
        literal_spec ch cs (c.position.right 1)
      · refine ⟨ch :: (body ++ [ch]), by simp [← heq], ?_⟩
        simp only [hv, String.toList_ofList]
        exact .closed hq hbody
      · refine ⟨ch :: cs, by simp [hafter], ?_⟩
        simp only [hv, hafter, String.toList_ofList]
        exact .unclosed hq hbody
    · have hmatch := longestMatch_numeral hnumber
      refine ⟨numeral (ch :: cs), htaken _ hmatch.2.1, ?_⟩
      simp only [taken, String.toList_ofList]
      exact .number (by rwa [← htaken _ hmatch.2.1])
    · have hmatch := longestMatch_name cs hname
      refine ⟨name (ch :: cs), htaken _ hmatch.2.1, ?_⟩
      simp only [taken, String.toList_ofList]
      exact isLexeme_name (by rwa [← htaken _ hmatch.2.1])
    · have hsingle := halone hquote hnumber hname
      subst hline
      refine ⟨['\n'], rfl, ?_⟩
      simp only [show "\n".toList = ['\n'] by decide]
      exact .single hsingle
    · refine ⟨[ch], htaken [ch] (by simp), ?_⟩
      simp only [taken, String.toList_ofList, Cursor.forward, hcs]
      exact .single (halone hquote hnumber hname)

/-- What `next` takes behind the layout. -/
def lexemeText (c : Cursor) : List Char :=
  (c.rest.drop (layout c.rest).length).take
    ((c.rest.drop (layout c.rest).length).length - (next c).2.rest.length)

/-- The call of the scanner at `c` takes the slice `skipped ++ w`: layout, and the lexeme of the
token. -/
structure Takes (c : Cursor) (skipped w : List Char) : Prop where
  /-- The slice stands right in front of what is left. -/
  text : c.rest = skipped ++ (w ++ (next c).2.rest)
  /-- Its first part is layout. -/
  layout : IsLayout skipped (w ++ (next c).2.rest)
  /-- Its second part is a lexeme, and of that kind and text is the token. -/
  lexeme : IsLexeme (next c).1.kind w (next c).1.text.toList (next c).2.rest

/-- **Every call of the scanner takes a slice.** -/
theorem takes (c : Cursor) : Takes c (layout c.rest) (lexemeText c) := by
  obtain ⟨hlayout, hnone⟩ := isLayout_layout c.rest
  obtain ⟨w, hw, hlex⟩ := exists_lexeme (c := c.forward (layout c.rest).length) hnone
  have hdrop : c.rest.drop (layout c.rest).length = w ++ (next c).2.rest := hw
  obtain rfl : lexemeText c = w := by simp [lexemeText, hdrop]
  refine ⟨?_, ?_, hlex⟩
  · rw [← hdrop, List.prefix_iff_eq_append.1 (layout_isPrefix c.rest)]
  · rwa [hdrop] at hlayout

/-- Only the final token has an empty lexeme. -/
theorem IsLexeme.ne_nil {kind : Kind} {w value rest : List Char} (h : IsLexeme kind w value rest)
    (hkind : kind ≠ .ending) : w ≠ [] := by
  cases h with
  | ending => exact absurd rfl hkind
  | number h =>
    rintro rfl
    obtain ⟨m, ds, f, e, heq, -, ⟨hne, -⟩, -⟩ := (mem_number_iff []).1 h.1
    simp_all
  | identifier h | truth h =>
    rintro rfl
    obtain ⟨c, cs, heq, -⟩ := (mem_name_iff []).1 h.1
    exact absurd heq (by simp)
  | closed | unclosed | single => simp

theorem ofChar_ne (c : Char) : Kind.ofChar c ≠ .ending ∧ Kind.ofChar c ≠ .number := by
  unfold Kind.ofChar
  split <;> simp

/-- The final token stands at the end of the script. -/
theorem IsLexeme.eq_nil {kind : Kind} {w value rest : List Char} (h : IsLexeme kind w value rest)
    (hkind : kind = .ending) : w = [] ∧ value = [] ∧ rest = [] := by
  cases h with
  | ending => exact ⟨rfl, rfl, rfl⟩
  | single => exact absurd hkind (ofChar_ne _).1
  | _ => exact Kind.noConfusion hkind

theorem IsLexeme.mem_number {kind : Kind} {w value rest : List Char}
    (h : IsLexeme kind w value rest) (hkind : kind = .number) :
    value ∈ Pattern.number.matches' := by
  cases h with
  | number hmatch => exact hmatch.1
  | single => exact absurd hkind (ofChar_ne _).2
  | _ => exact Kind.noConfusion hkind

end Token

end GeoLint
