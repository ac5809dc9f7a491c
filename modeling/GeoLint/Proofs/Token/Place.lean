import GeoLint.Proofs.Token.Tiling
import Mathlib.Algebra.Order.BigOperators.Group.Finset

/-!
# Where tokens stand

The true place behind a text at the start of a script is `Position.behind`: one line more than the
text has line ends, and one column more than it has characters behind the last of them.

The scanner keeps this place call by call, with one exception.  A line end right behind a backslash
in a string literal does not start a new line for it, so that from there on its lines are short by
one.  `cursorAfter_line` says by how much they are short after any number of calls: by the number
of line ends so escaped (`escapedBreaks`).  Hence the place of the scanner, and of each token, is
the true one exactly if no string literal before it has such a line end
(`cursorAfter_position_iff`, `tokenAt_position_iff`).
-/

namespace GeoLint

open Decimal (isDigit)

namespace Position

/-- The true place right behind a text that starts a script. -/
def behind (cs : List Char) : Position :=
  ⟨1 + cs.count '\n', 1 + (cs.reverse.takeWhile (· ≠ '\n')).length⟩

/-- The place behind one more character. -/
def step (p : Position) (c : Char) : Position :=
  if c = '\n' then p.nextLine else p.right 1

/-- The place behind a text that starts at `p`. -/
def past (p : Position) (cs : List Char) : Position := cs.foldl step p

theorem past_cons (p : Position) (c : Char) (cs : List Char) :
    p.past (c :: cs) = (p.step c).past cs := rfl

theorem past_append (p : Position) (cs ds : List Char) :
    p.past (cs ++ ds) = (p.past cs).past ds := List.foldl_append

theorem line_past (p : Position) (cs : List Char) :
    (p.past cs).line = p.line + cs.count '\n' := by
  induction cs generalizing p with
  | nil => rfl
  | cons c cs ih =>
    rw [past_cons, ih, List.count_cons]
    by_cases hc : c = '\n'
    · simp [step, hc, nextLine]; omega
    · simp [step, hc]

/-- Within a line only the column changes. -/
theorem past_eq_right (p : Position) {cs : List Char} (h : '\n' ∉ cs) :
    p.past cs = p.right cs.length := by
  induction cs generalizing p with
  | nil => rfl
  | cons c cs ih =>
    rw [List.mem_cons, not_or] at h
    have hc : c ≠ '\n' := fun he => h.1 he.symm
    rw [past_cons, ih _ h.2, step, if_neg hc, right_right, List.length_cons, Nat.add_comm]

theorem right_inj {p q : Position} {n : Nat} : p.right n = q.right n ↔ p = q := by
  obtain ⟨l, c⟩ := p
  obtain ⟨l', c'⟩ := q
  simp [right]

theorem past_origin (cs : List Char) : origin.past cs = behind cs := by
  induction cs using List.reverseRecOn with
  | nil => rfl
  | append_singleton cs c ih =>
    rw [past_append, ih]
    by_cases hc : c = '\n'
    · simp [past, step, behind, nextLine, hc]; omega
    · simp [past, step, behind, right, hc]; omega

end Position

namespace Token

/-! ### Line ends that are escaped -/

/-- The number of line ends that stand right behind a backslash, where the backslash itself is not
behind another. -/
def escapedBreaks : List Char → Nat
  | [] => 0
  | ['\\'] => 0
  | '\\' :: c :: cs => escapedBreaks cs + if c = '\n' then 1 else 0
  | _ :: cs => escapedBreaks cs

theorem escapedBreaks_plain {c : Char} (h : c ≠ '\\') (cs : List Char) :
    escapedBreaks (c :: cs) = escapedBreaks cs := by
  rw [escapedBreaks.eq_def]
  split <;> simp_all

theorem escapedBreaks_escaped (c : Char) (cs : List Char) :
    escapedBreaks ('\\' :: c :: cs) = escapedBreaks cs + if c = '\n' then 1 else 0 := rfl

theorem escapedBreaks_le_count (cs : List Char) : escapedBreaks cs ≤ cs.count '\n' := by
  fun_induction escapedBreaks cs with
  | case1 => simp
  | case2 => simp
  | case3 c cs ih =>
    simp only [List.count_cons]
    split_ifs <;> simp_all
  | case4 c cs _ _ ih =>
    rw [List.count_cons]
    omega

theorem escapedBreaks_eq_zero {cs : List Char} (h : '\n' ∉ cs) : escapedBreaks cs = 0 := by
  have hle := escapedBreaks_le_count cs
  rw [List.count_eq_zero.2 h] at hle
  omega

/-- Over the text `u` the scanner goes from `p` to `p'`: each line end counts but the escaped ones,
and if there are none of these, `p'` is the true place. -/
structure Reaches (p : Position) (u : List Char) (p' : Position) : Prop where
  /-- The line is short by the escaped line ends. -/
  line : p'.line + escapedBreaks u = p.line + u.count '\n'
  /-- Without them the place is right. -/
  place : escapedBreaks u = 0 → p' = p.past u

theorem reaches_past {p : Position} {u : List Char} (h : escapedBreaks u = 0) :
    Reaches p u (p.past u) :=
  ⟨by rw [h, Position.line_past, Nat.add_zero], fun _ => rfl⟩

theorem reaches_right {p : Position} {u : List Char} (h : '\n' ∉ u) :
    Reaches p u (p.right u.length) := by
  rw [← Position.past_eq_right p h]
  exact reaches_past (escapedBreaks_eq_zero h)

theorem Reaches.plain {p p' : Position} {c : Char} {u : List Char} (hc : c ≠ '\\')
    (h : Reaches (p.step c) u p') : Reaches p (c :: u) p' where
  line := by
    have hstep : (p.step c).line = p.line + [c].count '\n' := Position.line_past p [c]
    have hcount : (c :: u).count '\n' = [c].count '\n' + u.count '\n' := by
      rw [← List.count_append]; rfl
    rw [escapedBreaks_plain hc, h.line, hstep, hcount, Nat.add_assoc]
  place hzero := by
    rw [escapedBreaks_plain hc] at hzero
    rw [h.place hzero, Position.past_cons]

theorem Reaches.escaped {p p' : Position} {c : Char} {u : List Char}
    (h : Reaches (p.right 2) u p') : Reaches p ('\\' :: c :: u) p' where
  line := by
    have hline := h.line
    rw [Position.line_right] at hline
    rw [escapedBreaks_escaped, List.count_cons, List.count_cons]
    by_cases hc : c = '\n' <;> simp [hc] <;> omega
  place hzero := by
    rw [escapedBreaks_escaped] at hzero
    -- The scanner goes two columns on whatever `c` is, which is right unless `c` ends the line.
    have hc : c ≠ '\n' := by
      rintro rfl
      simp at hzero
    have hback : ('\\' : Char) ≠ '\n' := by decide
    rw [if_neg hc, Nat.add_zero] at hzero
    rw [h.place hzero, Position.past_cons, Position.past_cons, Position.step, Position.step,
      if_neg hback, if_neg hc, Position.right_right]

/-- The place behind a string literal. -/
theorem literal_reaches {q : Char} (hq : q ≠ '\n') (cs : List Char) (p : Position) :
    ∃ u, cs = u ++ (literal q cs p).2.rest ∧ Reaches p u (literal q cs p).2.position := by
  fun_induction literal q cs p with
  | case1 p => exact ⟨[], rfl, reaches_past rfl⟩
  | case2 cs p => exact ⟨[q], rfl, reaches_right (by simpa using hq.symm)⟩
  | case3 p _ => exact ⟨['\\'], rfl, reaches_right (by decide)⟩
  | case4 p e cs v after hrec _ ih =>
    rw [hrec] at ih
    obtain ⟨u, hu, hreach⟩ := ih
    exact ⟨'\\' :: e :: u, by simp [← hu], hreach.escaped⟩
  | case5 c cs p _ hc v after hrec ih =>
    simp only [hrec] at ih
    obtain ⟨u, hu, hreach⟩ := ih
    exact ⟨c :: u, by simp [← hu], hreach.plain hc⟩

theorem not_mem_numeral (cs : List Char) (h : startsNumeral cs = true) : '\n' ∉ numeral cs := by
  obtain ⟨m, ds, f, e, heq, hm, ⟨-, hds⟩, hf, he⟩ := (mem_number_iff _).1 (numeral_mem_number h)
  have hdigits : ∀ ds, IsDigits ds → '\n' ∉ ds := fun ds hds hmem => absurd (hds _ hmem) (by decide)
  rw [heq]
  simp only [List.mem_append, not_or]
  refine ⟨?_, hdigits ds hds, ?_, ?_⟩
  · obtain rfl | rfl := hm <;> decide
  · obtain rfl | ⟨ds, rfl, -, hds⟩ := hf
    · simp
    · simpa using hdigits ds hds
  · obtain rfl | ⟨mark, s, ds, rfl, hmark, hs, hds⟩ := he
    · simp
    · have hs : '\n' ∉ s := by obtain rfl | rfl | rfl := hs <;> decide
      have hmark : '\n' ≠ mark := by obtain rfl | rfl := hmark <;> decide
      simp [hmark, hs, hdigits ds hds]

theorem not_mem_name (cs : List Char) : '\n' ∉ name cs := by
  intro h
  exact absurd (List.all_eq_true.1 List.all_takeWhile _ h) (by decide)

/-- The place behind a lexeme. -/
theorem lexeme_reaches (c : Cursor) : ∃ u, c.rest = u ++ (lexeme c).2.rest ∧
    Reaches c.position u (lexeme c).2.position := by
  have htaken : ∀ w, w <+: c.rest → '\n' ∉ w → ∃ u, c.rest = u ++ (c.forward w.length).rest ∧
      Reaches c.position u (c.forward w.length).position := by
    intro w hw hbreak
    exact ⟨w, (List.prefix_iff_eq_append.1 hw).symm, reaches_right hbreak⟩
  unfold lexeme
  split
  · exact ⟨[], rfl, reaches_past rfl⟩
  · rename_i ch cs hcs
    rw [hcs] at htaken ⊢
    split_ifs with hquote hnumber hname hline
    · have hq : IsQuote ch := by simpa [IsQuote] using hquote
      have hbreak : ch ≠ '\n' := by obtain rfl | rfl := hq <;> decide
      have hback : ch ≠ '\\' := by obtain rfl | rfl := hq <;> decide
      obtain ⟨u, hu, hreach⟩ := literal_reaches hbreak cs (c.position.right 1)
      refine ⟨ch :: u, by simp [← hu], Reaches.plain hback ?_⟩
      rwa [Position.step, if_neg hbreak]
    · exact htaken _ (numeral_isPrefix _) (not_mem_numeral _ hnumber)
    · exact htaken _ (List.takeWhile_prefix _) (not_mem_name _)
    · subst hline
      exact ⟨['\n'], rfl, reaches_past rfl⟩
    · exact htaken [ch] (by simp) (by simpa using Ne.symm hline)

/-! ### After any number of calls -/

theorem not_mem_layout (cs : List Char) : '\n' ∉ layout cs := by
  obtain ⟨⟨blanks, note, heq, hblanks, hnote⟩, -⟩ := isLayout_layout cs
  rw [heq, List.mem_append, not_or]
  constructor
  · intro h
    exact absurd (hblanks _ h) (by decide)
  · obtain rfl | ⟨⟨body, rfl, hbody⟩, -⟩ := hnote
    · simp
    · simpa using hbody

theorem position_lexeme (c : Cursor) : (lexeme c).1.position = c.position := by
  unfold lexeme
  split
  · rfl
  · split_ifs <;> rfl

/-- Layout holds no line end. -/
theorem position_next (c : Cursor) : (next c).1.position = c.position.past (layout c.rest) := by
  rw [next, position_lexeme, Position.past_eq_right _ (not_mem_layout c.rest)]
  rfl

/-- The place behind the token at a cursor. -/
theorem next_reaches (c : Cursor) :
    Reaches (next c).1.position (lexemeText c) (next c).2.position := by
  obtain ⟨u, hu, hreach⟩ := lexeme_reaches (c.forward (layout c.rest).length)
  have hdrop : c.rest.drop (layout c.rest).length = u ++ (next c).2.rest := hu
  obtain rfl : lexemeText c = u := by simp [lexemeText, hdrop]
  rw [next, position_lexeme]
  exact hreach

/-- The lexeme of call `n`. -/
def lexemeAt (source : String) (n : Nat) : List Char := lexemeText (cursorAfter source n)

/-- The number of characters in front of the token of call `n`. -/
def startAt (source : String) (n : Nat) : Nat :=
  offsetAfter source n + (layout (cursorAfter source n).rest).length

theorem take_offsetAfter_append (source : String) (n : Nat) :
    source.toList.take (offsetAfter source n) ++ (cursorAfter source n).rest = source.toList := by
  obtain ⟨u, hu⟩ : ∃ u, u ++ (cursorAfter source n).rest = source.toList :=
    ⟨_, flatMap_slices (.ofSource source) n⟩
  have hlength := congrArg List.length hu
  rw [List.length_append, String.length_toList] at hlength
  have hoffset : offsetAfter source n = u.length := by
    have := offsetAfter_add source n
    omega
  rw [← hu, hoffset, List.take_left]

/-- The text in front of a token: what the calls before took, and layout. -/
theorem take_startAt (source : String) (n : Nat) : source.toList.take (startAt source n) =
    source.toList.take (offsetAfter source n) ++ layout (cursorAfter source n).rest := by
  obtain ⟨rest, hrest⟩ := layout_isPrefix (cursorAfter source n).rest
  have htext := take_offsetAfter_append source n
  have hlength : (source.toList.take (offsetAfter source n)).length = offsetAfter source n := by
    have := offsetAfter_add source n
    rw [List.length_take, String.length_toList]
    omega
  rw [← hrest, ← List.append_assoc] at htext
  conv_lhs => rw [← htext]
  rw [startAt, List.take_left']
  rw [List.length_append, hlength]

/-- The text up to behind a token. -/
theorem take_offsetAfter_succ (source : String) (n : Nat) :
    source.toList.take (offsetAfter source (n + 1)) =
      source.toList.take (startAt source n) ++ lexemeAt source n := by
  have hbefore := take_offsetAfter_append source n
  have hafter := take_offsetAfter_append source (n + 1)
  rw [(takes (cursorAfter source n)).text, ← cursorAfter_succ, ← List.append_assoc,
    ← List.append_assoc, ← take_startAt] at hbefore
  rw [← List.append_cancel_right (hbefore.trans hafter.symm)]
  rfl

theorem offsetAfter_zero (source : String) : offsetAfter source 0 = 0 := by
  rw [offsetAfter, cursorAfter, advance, length_ofSource, Nat.sub_self]

theorem tokenAt_position (source : String) (n : Nat) : (tokenAt source n).position =
    (cursorAfter source n).position.past (layout (cursorAfter source n).rest) :=
  position_next _

theorem tokenAt_reaches (source : String) (n : Nat) : Reaches (tokenAt source n).position
    (lexemeAt source n) (cursorAfter source (n + 1)).position := by
  rw [cursorAfter_succ]
  exact next_reaches _

/-- **The lines of the scanner are short by the escaped line ends**, and by nothing else. -/
theorem cursorAfter_line (source : String) (n : Nat) :
    (cursorAfter source n).position.line + ∑ k ∈ Finset.range n, escapedBreaks (lexemeAt source k) =
      (Position.behind (source.toList.take (offsetAfter source n))).line := by
  induction n with
  | zero =>
    rw [offsetAfter_zero]
    rfl
  | succ n ih =>
    -- Layout ends no line, so the lexeme alone changes the balance.
    have hline := (tokenAt_reaches source n).line
    rw [tokenAt_position, Position.line_past] at hline
    rw [Finset.sum_range_succ, take_offsetAfter_succ, take_startAt]
    simp only [Position.behind, List.count_append] at ih ⊢
    omega

/-- Without escaped line ends the scanner is at the true place. -/
theorem cursorAfter_position (source : String) (n : Nat)
    (h : ∀ k < n, escapedBreaks (lexemeAt source k) = 0) :
    (cursorAfter source n).position = .behind (source.toList.take (offsetAfter source n)) := by
  induction n with
  | zero =>
    rw [offsetAfter_zero]
    rfl
  | succ n ih =>
    have hbefore := ih fun k hk => h k (by omega)
    have hplace := (tokenAt_reaches source n).place (h n (by omega))
    rw [tokenAt_position, hbefore, ← Position.past_origin] at hplace
    rw [hplace, take_offsetAfter_succ, take_startAt, ← Position.past_origin, Position.past_append,
      Position.past_append]

theorem cursorAfter_position_iff (source : String) (n : Nat) :
    (cursorAfter source n).position = .behind (source.toList.take (offsetAfter source n)) ↔
      ∀ k < n, escapedBreaks (lexemeAt source k) = 0 := by
  refine ⟨fun h => ?_, cursorAfter_position source n⟩
  -- If the line is right it is short by nothing, and no term of the sum is negative.
  have hline := cursorAfter_line source n
  rw [h] at hline
  have hsum : ∑ k ∈ Finset.range n, escapedBreaks (lexemeAt source k) = 0 := by omega
  rw [Finset.sum_eq_zero_iff] at hsum
  exact fun k hk => hsum k (Finset.mem_range.2 hk)

theorem tokenAt_position_iff (source : String) (n : Nat) :
    (tokenAt source n).position = .behind (source.toList.take (startAt source n)) ↔
      ∀ k < n, escapedBreaks (lexemeAt source k) = 0 := by
  rw [← cursorAfter_position_iff, tokenAt_position, take_startAt, ← Position.past_origin,
    ← Position.past_origin, Position.past_append,
    Position.past_eq_right _ (not_mem_layout _), Position.past_eq_right _ (not_mem_layout _),
    Position.right_inj]

end Token

end GeoLint
