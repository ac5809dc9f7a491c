import GeoLint.Proofs.Text.Trim
import GeoLint.Transcript

/-!
# Which commands a chat text holds

A chat text is written as `Segment`s: plain text, inline commands and blocks.  Two searches go over
it, one for inline commands and one for blocks, and both go by backticks.  Where segments meet there
may be up to six backticks in a row, and a search could start or stop at the wrong one.  It does
not, except for plain text right behind a block: if that begins with `ggb:`, the last backtick of
the closing fence opens an inline command.  `Clear` excludes this.

`Finds` is what a search finds, from left to right and without overlap, with no mention of fuel.
`finds_inlines` and `finds_blocks` go over the segments with it; from there
`commands_of_segments` is a matter of trimming.
-/

namespace GeoLint

namespace Transcript

/-! ### Segments -/

/-- The word that marks an inline command. -/
def mark : List Char := ['g', 'g', 'b', ':']

/-- The word that marks a block, and the end of its line. -/
def language : List Char := ['g', 'e', 'o', 'g', 'e', 'b', 'r', 'a', '\n']

/-- A part of a chat text. -/
inductive Segment where
  /-- Text without backticks. -/
  | plain (text : List Char) (free : backtick ∉ text)
  /-- A command between backticks, behind `ggb:`. -/
  | inline (command : List Char) (free : backtick ∉ command) (full : command ≠ [])
  /-- The lines between two fences, of which the first has the word `geogebra`. -/
  | block (content : List Char) (free : backtick ∉ content)

namespace Segment

/-- The text of a segment. -/
def text : Segment → List Char
  | plain t _ => t
  | inline c _ _ => backtick :: (mark ++ (c ++ [backtick]))
  | block b _ =>
    backtick :: backtick :: backtick :: (language ++ (b ++ [backtick, backtick, backtick]))

/-- The command of an inline segment. -/
def command? : Segment → Option (List Char)
  | inline c _ _ => some c
  | _ => none

/-- The content of a block. -/
def content? : Segment → Option (List Char)
  | block b _ => some b
  | _ => none

end Segment

/-- The plain text that segments start with, up to the first that is not plain. -/
def leading : List Segment → List Char
  | .plain t _ :: rest => t ++ leading rest
  | _ => []

/-- Nowhere does the plain text right behind a block begin with `ggb:`. -/
def Clear : List Segment → Prop
  | [] => True
  | .block _ _ :: rest => ¬ mark <+: leading rest ∧ Clear rest
  | _ :: rest => Clear rest

/-! ### Searches -/

/-- What a search with `piece?` finds in a text, from left to right and without overlap. -/
inductive Finds (piece? : List Char → Option (List Char × List Char)) :
    List Char → List (List Char) → Prop
  /-- Nothing is left to search. -/
  | done : Finds piece? [] []
  /-- No piece starts here. -/
  | skip {c : Char} {cs : List Char} {found : List (List Char)} :
    piece? (c :: cs) = none → Finds piece? cs found → Finds piece? (c :: cs) found
  /-- A piece starts here, and the search goes on behind it. -/
  | take {c : Char} {cs body rest : List Char} {found : List (List Char)} :
    piece? (c :: cs) = some (body, rest) → rest <:+ cs → Finds piece? rest found →
      Finds piece? (c :: cs) (body :: found)

theorem Finds.scan_eq {piece? : List Char → Option (List Char × List Char)} {cs : List Char}
    {found : List (List Char)} (h : Finds piece? cs found) {fuel : Nat} (hfuel : cs.length ≤ fuel) :
    scan piece? fuel cs = found := by
  induction h generalizing fuel with
  | done => cases fuel <;> rfl
  | skip hnone _ ih =>
    obtain ⟨fuel, rfl⟩ := Nat.exists_eq_succ_of_ne_zero (Nat.ne_zero_of_lt hfuel)
    rw [scan, hnone]
    exact ih (by simpa using hfuel)
  | take hsome hrest _ ih =>
    obtain ⟨fuel, rfl⟩ := Nat.exists_eq_succ_of_ne_zero (Nat.ne_zero_of_lt hfuel)
    have hlength := hrest.length_le
    rw [List.length_cons] at hfuel
    rw [scan, hsome]
    exact congrArg _ (ih (by omega))

/-- A word that starts with another character than the text does not begin it. -/
theorem not_isPrefix_cons {c d : Char} (h : c ≠ d) (word cs : List Char) :
    ¬ c :: word <+: d :: cs := by
  rw [List.cons_prefix_cons]
  exact fun hprefix => h hprefix.1

/-- Pieces start with a backtick and `word`, and nowhere else. -/
def Opens (piece? : List Char → Option (List Char × List Char)) (word : List Char) : Prop :=
  ∀ cs, ¬ backtick :: word <+: cs → piece? cs = none

section Opens

variable {piece? : List Char → Option (List Char × List Char)} {word cs : List Char}
  {found : List (List Char)}

/-- A search passes over a backtick that the word does not follow. -/
theorem Opens.skip (hpiece : Opens piece? word) (hword : ¬ word <+: cs)
    (h : Finds piece? cs found) : Finds piece? (backtick :: cs) found :=
  .skip (hpiece _ (by rwa [List.prefix_cons_inj])) h

/-- A search passes over text without backticks. -/
theorem Opens.plain (hpiece : Opens piece? word) {t : List Char} (ht : backtick ∉ t)
    (h : Finds piece? cs found) : Finds piece? (t ++ cs) found := by
  induction t with
  | nil => exact h
  | cons c t ih =>
    rw [List.mem_cons, not_or] at ht
    exact .skip (hpiece _ (not_isPrefix_cons ht.1 _ _)) (ih ht.2)

end Opens

/-! ### Inline commands -/

theorem inlineOpening_eq : inlineOpening = backtick :: mark := by decide

theorem backtick_not_mem_mark : backtick ∉ mark := by decide

theorem opens_inlineHere? : Opens inlineHere? mark := by
  intro cs h
  rw [← inlineOpening_eq, ← List.isPrefixOf_iff_prefix] at h
  rw [inlineHere?, if_neg h]

/-- An inline command is found where it starts. -/
theorem inlineHere?_inline {c : List Char} (hfree : backtick ∉ c) (hfull : c ≠ [])
    (cs : List Char) :
    inlineHere? (backtick :: (mark ++ (c ++ backtick :: cs))) = some (c, cs) := by
  have hbody : (c ++ backtick :: cs).takeWhile (· ≠ backtick) = c := by
    rw [List.takeWhile_append_of_pos (by simpa using fun d hd => ne_of_mem_of_not_mem hd hfree)]
    simp
  have hopening :
      inlineOpening.isPrefixOf (backtick :: (mark ++ (c ++ backtick :: cs))) = true := by
    rw [List.isPrefixOf_iff_prefix, inlineOpening_eq, List.prefix_cons_inj]
    exact List.prefix_append _ _
  have hdrop : (backtick :: (mark ++ (c ++ backtick :: cs))).drop inlineOpening.length =
      c ++ backtick :: cs := by
    rw [inlineOpening_eq]
    rfl
  obtain ⟨d, ds, rfl⟩ := List.exists_cons_of_ne_nil hfull
  simp only [inlineHere?, hopening, if_true, hdrop, hbody, List.drop_left]

/-! ### Blocks -/

theorem fenceOpening_eq : fenceOpening = backtick :: backtick :: backtick :: language := by decide

theorem fence_eq : fence = [backtick, backtick, backtick] := by decide

theorem backtick_not_mem_language : backtick ∉ language := by decide

theorem opens_blockHere? : Opens blockHere? (backtick :: backtick :: language) := by
  intro cs h
  rw [← fenceOpening_eq, ← List.isPrefixOf_iff_prefix] at h
  rw [blockHere?, if_neg h]

/-- The first fence behind text without backticks. -/
theorem splitAt?_fence {b : List Char} (hfree : backtick ∉ b) (cs : List Char) :
    splitAt? fence (b ++ backtick :: backtick :: backtick :: cs) = some (b, cs) := by
  rw [fence_eq]
  induction b with
  | nil => simp [splitAt?]
  | cons c b ih =>
    rw [List.mem_cons, not_or] at hfree
    have hfence : ¬ [backtick, backtick, backtick].isPrefixOf
        (c :: (b ++ backtick :: backtick :: backtick :: cs)) = true := by
      rw [List.isPrefixOf_iff_prefix, List.cons_prefix_cons]
      exact fun h => hfree.1 h.1
    rw [List.cons_append, splitAt?, if_neg hfence, ih hfree.2]
    rfl

/-- A block is found where it starts. -/
theorem blockHere?_block {b : List Char} (hfree : backtick ∉ b) (cs : List Char) :
    blockHere? (backtick :: backtick :: backtick :: (language ++
      (b ++ backtick :: backtick :: backtick :: cs))) = some (b, cs) := by
  have hopening : fenceOpening <+: backtick :: backtick :: backtick :: (language ++
      (b ++ backtick :: backtick :: backtick :: cs)) := by
    rw [fenceOpening_eq]
    exact List.prefix_append (backtick :: backtick :: backtick :: language) _
  rw [blockHere?, if_pos (List.isPrefixOf_iff_prefix.2 hopening), fenceOpening_eq]
  exact splitAt?_fence hfree cs

/-! ### Going over the segments -/

/-- The text of segments. -/
def textOf (segments : List Segment) : List Char :=
  segments.flatMap Segment.text

theorem textOf_plain {t : List Char} (hfree : backtick ∉ t) (segments : List Segment) :
    textOf (.plain t hfree :: segments) = t ++ textOf segments :=
  List.flatMap_cons

theorem textOf_inline {c : List Char} (hfree : backtick ∉ c) (hfull : c ≠ [])
    (segments : List Segment) : textOf (.inline c hfree hfull :: segments) =
      backtick :: (mark ++ (c ++ backtick :: textOf segments)) := by
  rw [textOf, List.flatMap_cons, Segment.text, List.cons_append, List.append_assoc,
    List.append_assoc]
  rfl

theorem textOf_block {b : List Char} (hfree : backtick ∉ b) (segments : List Segment) :
    textOf (.block b hfree :: segments) = backtick :: backtick :: backtick :: (language ++
      (b ++ backtick :: backtick :: backtick :: textOf segments)) := by
  rw [textOf, List.flatMap_cons, Segment.text, List.cons_append, List.cons_append, List.cons_append,
    List.append_assoc, List.append_assoc]
  rfl

/-- Segments are their leading plain text, and then nothing or a backtick. -/
theorem textOf_eq_leading (segments : List Segment) :
    textOf segments = leading segments ∨
      ∃ more, textOf segments = leading segments ++ backtick :: more := by
  induction segments with
  | nil => exact .inl rfl
  | cons s segments ih =>
    cases s with
    | plain t hfree =>
      rw [textOf_plain, leading]
      rcases ih with h | ⟨more, h⟩
      · exact .inl (by rw [h])
      · exact .inr ⟨more, by rw [h, List.append_assoc]⟩
    | inline c hfree hfull => exact .inr ⟨_, textOf_inline hfree hfull segments⟩
    | block b hfree => exact .inr ⟨_, textOf_block hfree segments⟩

/-- What has no backtick begins the segments only if it begins their leading plain text. -/
theorem isPrefix_leading {word : List Char} (hword : backtick ∉ word) {segments : List Segment}
    (h : word <+: textOf segments) : word <+: leading segments := by
  rcases textOf_eq_leading segments with heq | ⟨more, heq⟩
  · rwa [heq] at h
  · rw [heq] at h
    by_cases hlength : word.length ≤ (leading segments).length
    · exact List.prefix_of_prefix_length_le h (List.prefix_append _ _) hlength
    · -- else the word reaches over the backtick
      have hreach : leading segments ++ [backtick] <+: word := by
        refine List.prefix_of_prefix_length_le ⟨more, by simp⟩ h ?_
        rw [List.length_append, List.length_singleton]
        omega
      exact absurd (hreach.subset (by simp)) hword

/-- **The inline commands** of segments are found, and nothing else. -/
theorem finds_inlines {segments : List Segment} (h : Clear segments) :
    Finds inlineHere? (textOf segments) (segments.filterMap Segment.command?) := by
  induction segments with
  | nil => exact .done
  | cons s segments ih =>
    cases s with
    | plain t hfree =>
      rw [textOf_plain]
      exact opens_inlineHere?.plain hfree (ih h)
    | inline c hfree hfull =>
      rw [textOf_inline]
      refine .take (inlineHere?_inline hfree hfull _) ?_ (ih h)
      exact ⟨mark ++ (c ++ [backtick]), by simp⟩
    | block b hfree =>
      obtain ⟨hclear, h⟩ := h
      have hbehind : ¬ mark <+: textOf segments := fun hprefix =>
        hclear (isPrefix_leading backtick_not_mem_mark hprefix)
      have hbacktick (cs : List Char) : ¬ mark <+: backtick :: cs :=
        not_isPrefix_cons (by decide) _ cs
      have hlanguage (cs : List Char) : ¬ mark <+: language ++ cs := by
        rw [mark, language, List.cons_append, List.prefix_cons_inj]
        exact not_isPrefix_cons (by decide) _ _
      rw [textOf_block]
      -- of the six backticks only the last could open a command
      refine opens_inlineHere?.skip (hbacktick _) ?_
      refine opens_inlineHere?.skip (hbacktick _) ?_
      refine opens_inlineHere?.skip (hlanguage _) ?_
      refine opens_inlineHere?.plain backtick_not_mem_language ?_
      refine opens_inlineHere?.plain hfree ?_
      refine opens_inlineHere?.skip (hbacktick _) ?_
      refine opens_inlineHere?.skip (hbacktick _) ?_
      exact opens_inlineHere?.skip hbehind (ih h)

/-- Segments do not begin with two backticks and the word: a block has three. -/
theorem not_isPrefix_textOf (segments : List Segment) :
    ¬ backtick :: backtick :: language <+: textOf segments := by
  induction segments with
  | nil => simp [textOf]
  | cons s segments ih =>
    cases s with
    | plain t hfree =>
      rw [textOf_plain]
      cases t with
      | nil => exact ih
      | cons c t => exact not_isPrefix_cons (fun h => hfree (by simp [h])) _ _
    | inline c hfree hfull =>
      rw [textOf_inline, List.prefix_cons_inj]
      exact not_isPrefix_cons (by decide) _ _
    | block b hfree =>
      rw [textOf_block, List.prefix_cons_inj, List.prefix_cons_inj]
      exact not_isPrefix_cons (by decide) _ _

/-- **The blocks** of segments are found, and nothing else. -/
theorem finds_blocks (segments : List Segment) :
    Finds blockHere? (textOf segments) (segments.filterMap Segment.content?) := by
  induction segments with
  | nil => exact .done
  | cons s segments ih =>
    cases s with
    | plain t hfree =>
      rw [textOf_plain]
      exact opens_blockHere?.plain hfree ih
    | inline c hfree hfull =>
      rw [textOf_inline]
      refine opens_blockHere?.skip (not_isPrefix_cons (by decide) _ _) ?_
      refine opens_blockHere?.plain backtick_not_mem_mark ?_
      refine opens_blockHere?.plain hfree ?_
      exact opens_blockHere?.skip (not_isPrefix_textOf segments) ih
    | block b hfree =>
      rw [textOf_block]
      refine .take (blockHere?_block hfree _) ?_ ih
      exact ⟨backtick :: backtick :: (language ++ (b ++ [backtick, backtick, backtick])), by simp⟩

/-- The commands of a block are its lines that are not blank. -/
theorem blockCommands_eq (b : List Char) : blockCommands b =
    ((Text.lines b).filter fun line => !Text.blank line).map Text.trim := by
  rw [blockCommands, List.filter_map]
  refine congrArg _ (List.filter_congr fun line _ => ?_)
  rw [Function.comp_apply, Bool.not_inj_iff, Bool.eq_iff_iff, List.isEmpty_iff,
    Text.trim_eq_nil_iff]

/-- **Exactly the commands that a chat text was written with are found in it.**

Where no plain text behind a block begins with `ggb:`, the commands are what the inline segments
hold, trimmed and in order, and then the lines of the blocks that are not blank, trimmed and in
order. -/
theorem commands_of_segments {segments : List Segment} (h : Clear segments) :
    commands (String.ofList (textOf segments)) =
      ((segments.filterMap Segment.command?).map Text.trim ++
        (segments.filterMap Segment.content?).flatMap fun b =>
          ((Text.lines b).filter fun line => !Text.blank line).map Text.trim).map
            String.ofList := by
  have hinlines : inlines (textOf segments) = segments.filterMap Segment.command? :=
    (finds_inlines h).scan_eq (Nat.le_refl _)
  have hblocks : blocks (textOf segments) = segments.filterMap Segment.content? :=
    (finds_blocks segments).scan_eq (Nat.le_refl _)
  rw [commands, String.toList_ofList, hinlines, hblocks]
  simp only [funext blockCommands_eq]

/-- Two inline commands, two blocks and another command with nothing between them, then plain
text. -/
theorem commands_of_segments_adjacent :
    ∃ segments, Clear segments ∧
      String.ofList (textOf segments) =
        "`ggb: a``ggb:b````geogebra\nc\n \nd``````geogebra\ne````ggb:f`ggb:" ∧
      commands "`ggb: a``ggb:b````geogebra\nc\n \nd``````geogebra\ne````ggb:f`ggb:" =
        ["a", "b", "f", "c", "d", "e"] := by
  have hclear : Clear [.inline [' ', 'a'] (by decide) (by decide),
      .inline ['b'] (by decide) (by decide), .block ['c', '\n', ' ', '\n', 'd'] (by decide),
      .block ['e'] (by decide), .inline ['f'] (by decide) (by decide),
      .plain ['g', 'g', 'b', ':'] (by decide)] :=
    ⟨by decide, by decide, trivial⟩
  exact ⟨_, hclear, by decide, (commands_of_segments hclear).trans (by decide)⟩

end Transcript

end GeoLint
