import GeoLint.Proofs.Token.Unique

/-!
# Texts written as string literals

Any text can be written between quotes: each backslash and each quote of the same kind gets a
backslash in front of it, and a line end or a tab may be written as a backslash and a letter
(`writeText`).  The scanner reads back what was written.  `Writes` says what that takes, for
characters between quotes and the text they stand for; `Writes.cons` adds a character and
`writes_writeText` has the whole text.  The scanner has no choice at such a literal (`next_eq`).

No line end is written behind a backslash, so this is a case in which the scanner keeps the true
place: it stops right behind the closing quote, in the line and the column of what follows.
-/

namespace GeoLint

namespace Token

/-- A character of a text between quotes `q`.  A line end or a tab is written with a letter if
`lettered` says so. -/
def writeChar (q : Char) (lettered : Bool) (c : Char) : List Char :=
  if c = '\\' ∨ c = q then ['\\', c]
  else if c = '\n' ∧ lettered then ['\\', 'n']
  else if c = '\t' ∧ lettered then ['\\', 't']
  else [c]

/-- A text between quotes `q`.  Of the line ends and tabs those are written with a letter whose
places `lettered` chooses. -/
def writeText (q : Char) (lettered : Nat → Bool) (s : List Char) : List Char :=
  (s.mapIdx fun i c => writeChar q (lettered i) c).flatten

theorem writeText_cons (q : Char) (lettered : Nat → Bool) (c : Char) (s : List Char) :
    writeText q lettered (c :: s) =
      writeChar q (lettered 0) c ++ writeText q (fun i => lettered (i + 1)) s := by
  rw [writeText, List.mapIdx_cons, List.flatten_cons]
  rfl

/-- A written character stands for itself, or behind a backslash for what it is read as there. -/
theorem writeChar_cases {q : Char} (hq : IsQuote q) (lettered : Bool) (c : Char) :
    (writeChar q lettered c = [c] ∧ c ≠ q ∧ c ≠ '\\') ∨
      ∃ e, writeChar q lettered c = ['\\', e] ∧ unescape e = c ∧ e ≠ '\n' := by
  unfold writeChar
  split_ifs with hmark hnewline htab
  · refine .inr ⟨c, rfl, ?_⟩
    rcases hmark with rfl | rfl
    · decide
    · obtain rfl | rfl := hq <;> decide
  · exact .inr ⟨'n', rfl, hnewline.1.symm, by decide⟩
  · exact .inr ⟨'t', rfl, htab.1.symm, by decide⟩
  · rw [not_or] at hmark
    exact .inl ⟨rfl, hmark.2, hmark.1⟩

/-- Between quotes `q`, the characters `body` stand for the text `s`, and the scanner keeps the true
place across them. -/
structure Writes (q : Char) (body s : List Char) : Prop where
  /-- No quote closes the literal early. -/
  enclosed : Enclosed q body
  /-- It is read as the text. -/
  unescaped_eq : unescaped body = s
  /-- The scanner's own place is the true one. -/
  across_eq : ∀ p : Position, p.across body = p.past body

theorem Writes.nil (q : Char) : Writes q [] [] := ⟨.nil, rfl, fun _ => rfl⟩

/-- **One more character** in front of a text. -/
theorem Writes.cons {q : Char} {body s : List Char} (hq : IsQuote q) (lettered : Bool) (c : Char)
    (h : Writes q body s) : Writes q (writeChar q lettered c ++ body) (c :: s) := by
  rcases writeChar_cases hq lettered c with ⟨heq, hcq, hc⟩ | ⟨e, heq, rfl, he⟩
  · rw [heq, List.singleton_append]
    refine ⟨.plain hcq hc h.enclosed, ?_, fun p => ?_⟩
    · rw [unescaped_plain hc, h.unescaped_eq]
    · rw [Position.across_plain hc, h.across_eq, Position.past_cons]
  · have hpast : ∀ p : Position, p.past ['\\', e] = p.right 2 :=
      fun p => Position.past_eq_right p (by simpa using he.symm)
    rw [heq, List.cons_append, List.singleton_append]
    refine ⟨.escaped h.enclosed, ?_, fun p => ?_⟩
    · rw [unescaped_escaped, h.unescaped_eq]
    · rw [Position.across_escaped, h.across_eq, ← hpast, ← Position.past_append]
      rfl

/-- **A whole text.** -/
theorem writes_writeText {q : Char} (hq : IsQuote q) (lettered : Nat → Bool) (s : List Char) :
    Writes q (writeText q lettered s) s := by
  induction s generalizing lettered with
  | nil => exact .nil q
  | cons c s ih =>
    rw [writeText_cons]
    exact .cons hq _ _ (ih _)

/-- A text as a string literal. -/
def quotation (q : Char) (lettered : Nat → Bool) (s : String) : List Char :=
  q :: (writeText q lettered s.toList ++ [q])

theorem across_quotation {q : Char} (hq : IsQuote q) (lettered : Nat → Bool) (s : String)
    (p : Position) : p.across (quotation q lettered s) = p.past (quotation q lettered s) := by
  have hwrites := writes_writeText hq lettered s.toList
  have hquote : ∀ p : Position, p.past [q] = p.right 1 :=
    fun p => Position.past_eq_right p (by simpa using hq.ne.2.symm)
  rw [quotation, Position.across_plain hq.ne.1, across_append_quote hq hwrites.enclosed,
    hwrites.across_eq, Position.past_cons, Position.past_append, hquote]

theorem next_quotation {q : Char} (hq : IsQuote q) (lettered : Nat → Bool) (s : String)
    (rest : List Char) (p : Position) : next ⟨quotation q lettered s ++ rest, p⟩ =
      (⟨.text, s, p⟩, ⟨rest, p.past (quotation q lettered s)⟩) := by
  have hwrites := writes_writeText hq lettered s.toList
  have hlexeme : IsLexeme .text (quotation q lettered s) s.toList rest := by
    rw [← hwrites.unescaped_eq]
    exact .closed hq hwrites.enclosed
  have hnone : IsLayout [] (quotation q lettered s ++ rest) := ⟨[], [], rfl, by simp, .inl rfl⟩
  have hnext := next_eq hnone hlexeme p
  rwa [String.ofList_toList, List.nil_append, List.length_nil, Position.right_zero,
    across_quotation hq] at hnext

/-- **Every text can be written as a string literal and is read back exactly.**

Whatever line ends and tabs are written with a letter, and whatever follows the closing quote, the
scanner gives a string literal with that text and stops at what follows, at its true place.  This is
so wherever the literal stands, and at the start of a script the literal is the first token. -/
theorem read_back_quotation {q : Char} (hq : IsQuote q) (lettered : Nat → Bool)
    (s rest : String) :
    (∀ p, next ⟨quotation q lettered s ++ rest.toList, p⟩ =
      (⟨.text, s, p⟩, ⟨rest.toList, p.past (quotation q lettered s)⟩)) ∧
    ∀ source, source.toList = quotation q lettered s ++ rest.toList →
      tokenAt source 0 = ⟨.text, s, .origin⟩ ∧
      offsetAfter source 1 = (quotation q lettered s).length ∧
      cursorAfter source 1 = ⟨rest.toList, .behind (quotation q lettered s)⟩ := by
  have hnext := next_quotation hq lettered s rest.toList
  refine ⟨hnext, fun source hsource => ?_⟩
  have hstart : Cursor.ofSource source = ⟨quotation q lettered s ++ rest.toList, .origin⟩ := by
    rw [Cursor.ofSource, hsource]
  have hafter : cursorAfter source 1 = ⟨rest.toList, .behind (quotation q lettered s)⟩ := by
    rw [cursorAfter, advance, advance, hstart, hnext, Position.past_origin]
  refine ⟨?_, ?_, hafter⟩
  · rw [tokenAt, upcoming, advance, hstart, hnext]
  · rw [offsetAfter, hafter, ← String.length_toList, hsource, List.length_append,
      Nat.add_sub_cancel]

/-- A backslash, a quote and two line ends, of which the first is written with a letter. -/
theorem read_back_quotation_line_ends :
    IsQuote '\x22' ∧
    tokenAt "\"\\\\\\\"\\n\n\"x" 0 = ⟨.text, "\\\"\n\n", .origin⟩ ∧
    offsetAfter "\"\\\\\\\"\\n\n\"x" 1 = 9 ∧
    cursorAfter "\"\\\\\\\"\\n\n\"x" 1 = ⟨['x'], ⟨2, 2⟩⟩ := by
  have hq : IsQuote '\x22' := .inl rfl
  exact ⟨hq, (read_back_quotation hq (· = 2) "\\\"\n\n" "x").2 _ (by decide)⟩

end Token

end GeoLint
