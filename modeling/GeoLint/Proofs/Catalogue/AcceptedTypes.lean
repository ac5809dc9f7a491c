import GeoLint.Proofs.Text.Pieces
import GeoLint.Rule.ArgumentTypes

/-!
# The types that a slot accepts

A slot can list types and values, with bars and white space between them.  An argument fits the
slot if it fits one of them, so each has to be there on its own: not empty, with no white space
around it, and with nothing in it that belongs to the notation (`IsAtomic`).

`ReadAs` says all that the reader of slots can make of a text.  Of several words it takes the first
as it stands for the type, and cuts only the others at bars.  So the accepted types are atomic
exactly if there is no bar in the first of several words, and then they are what the slot lists
(`accepted_atomic_iff`).  With a bar there, arguments of a type that the slot lists do not fit
(`listed_type_refused`).
-/

namespace GeoLint

namespace Signature

/-- The text of a slot: no angle brackets, and no white space around it. -/
def slotText (cs : List Char) : List Char :=
  Text.trim (cs.filter fun c => c ≠ '<' && c ≠ '>')

/-- What a slot lists: the texts between bars and white space. -/
def listed (cs : List Char) : List String :=
  (Text.fullPieces (fun c => Text.isBlank c || c = '|') (slotText cs)).map String.ofList

/-- The slot has a list of types or values, not a text in quotes. -/
def Lists (cs : List Char) : Prop :=
  '|' ∈ slotText cs ∧ isQuoted (slotText cs) = false

/-- There is a bar in the first of several words, which are not in quotes. -/
def BarInFirstWord (cs : List Char) : Prop :=
  isQuoted (slotText cs) = false ∧
    ∃ first gap rest, slotText cs = first ++ gap :: rest ∧ '|' ∈ first ∧
      (∀ c ∈ first, Text.isBlank c = false) ∧ Text.isBlank gap = true

/-- The type can be matched on its own. -/
structure IsAtomic (type : String) : Prop where
  /-- It is not empty, and there is no white space around it. -/
  solid : Text.Solid type.toList
  /-- There is no bracket and no bar in it. -/
  plain : ∀ c ∈ type.toList, c ≠ '<' ∧ c ≠ '>' ∧ c ≠ '|'

/-! ### Words -/

section Words

variable {cs : List Char}

/-- White space in a solid text has a word before it and a word behind it. -/
theorem words_ne_nil_of_solid {front rest : List Char} {gap : Char}
    (h : Text.Solid (front ++ gap :: rest)) (hgap : Text.isBlank gap = true) :
    Text.words front ≠ [] ∧ Text.words rest ≠ [] := by
  constructor
  · cases front with
    | nil =>
      have hhead := h.head gap (by simp)
      rw [hgap] at hhead
      cases hhead
    | cons c front => exact Text.fullPieces_ne_nil List.mem_cons_self (h.head c (by simp))
  · rcases List.eq_nil_or_concat rest with rfl | ⟨rest, c, rfl⟩
    · have hlast := h.last gap (by simp)
      rw [hgap] at hlast
      cases hlast
    · have hlast : Text.isBlank c = false := h.last c (by simp [List.getLast?_cons])
      exact Text.fullPieces_ne_nil (by simp) hlast

/-- A solid text is one word, or its first word ends at white space and others follow. -/
theorem words_cases (h : Text.Solid cs) :
    ((∀ c ∈ cs, Text.isBlank c = false) ∧ Text.words cs = [cs]) ∨
      ∃ first gap rest, cs = first ++ gap :: rest ∧ (∀ c ∈ first, Text.isBlank c = false) ∧
        Text.isBlank gap = true ∧ Text.words cs = first :: Text.words rest ∧
        Text.words rest ≠ [] := by
  rcases Text.exists_first Text.isBlank cs with hword | ⟨first, gap, rest, rfl, hgap, hfirst⟩
  · exact .inl ⟨hword, Text.fullPieces_of_forall h.ne_nil hword⟩
  · obtain ⟨hbefore, hbehind⟩ := words_ne_nil_of_solid h hgap
    have hne : first ≠ [] := by
      rintro rfl
      exact hbefore rfl
    refine .inr ⟨first, gap, rest, rfl, hfirst, hgap, ?_, hbehind⟩
    rw [Text.words, Text.fullPieces_append hgap, Text.fullPieces_of_forall hne hfirst]
    rfl

theorem bracket_not_mem_slotText : ∀ c ∈ slotText cs, c ≠ '<' ∧ c ≠ '>' := by
  intro c hc
  simpa using (List.mem_filter.1 (Text.mem_of_mem_trim hc)).2

/-- **What a slot lists is atomic.** -/
theorem isAtomic_of_mem_listed {t : String} (h : t ∈ listed cs) : IsAtomic t := by
  obtain ⟨w, hw, rfl⟩ := List.mem_map.1 h
  obtain ⟨hne, hall⟩ := Text.of_mem_fullPieces hw
  have hplain : ∀ c ∈ w, Text.isBlank c = false ∧ c ≠ '|' := by
    intro c hc
    simpa using (hall c hc).2
  refine ⟨?_, ?_⟩
  · rw [String.toList_ofList]
    exact Text.solid_of_forall hne fun c hc => (hplain c hc).1
  · rw [String.toList_ofList]
    intro c hc
    obtain ⟨hopening, hclosing⟩ := bracket_not_mem_slotText c (hall c hc).1
    exact ⟨hopening, hclosing, (hplain c hc).2⟩

/-- What a slot lists is found word by word. -/
theorem listed_eq : listed cs = (Text.words (slotText cs)).flatMap options := by
  rw [listed, Text.fullPieces_or, List.map_flatMap]
  rfl

/-- A word without a bar is the only text between bars in it. -/
theorem options_of_not_mem {w : List Char} (hne : w ≠ []) (h : '|' ∉ w) :
    options w = [String.ofList w] := by
  have hbar : ∀ c ∈ w, decide (c = '|') = false := by
    intro c hc
    exact decide_eq_false (ne_of_mem_of_not_mem hc h)
  rw [options, Text.fullPieces_of_forall hne hbar, List.map_singleton]

theorem BarInFirstWord.exists_words (h : BarInFirstWord cs) :
    ∃ first others, Text.words (slotText cs) = first :: others ∧ '|' ∈ first := by
  obtain ⟨-, first, gap, rest, heq, hbar, hfirst, hgap⟩ := h
  refine ⟨first, Text.words rest, ?_, hbar⟩
  rw [heq, Text.words, Text.fullPieces_append hgap,
    Text.fullPieces_of_forall (List.ne_nil_of_mem hbar) hfirst]
  rfl

end Words

/-! ### What a slot is read as -/

/-- All that a slot can be read as. -/
inductive ReadAs (cs : List Char) : Parameter → Prop
  /-- Dots stand for anything. -/
  | dots (h : cs = "...".toList) : ReadAs cs ⟨"any", true, none⟩
  /-- A text in quotes stands for a string. -/
  | quoted (h : isQuoted (slotText cs) = true) : ReadAs cs ⟨"String", false, none⟩
  /-- A text without bars is a type. -/
  | typed (hne : slotText cs ≠ []) (h : '|' ∉ slotText cs) :
    ReadAs cs ⟨String.ofList (slotText cs), false, none⟩
  /-- Of several words the first is the type, and the others are cut at bars. -/
  | words {first gap rest} (h : Lists cs) (htext : slotText cs = first ++ gap :: rest)
    (hfirst : ∀ c ∈ first, Text.isBlank c = false) (hgap : Text.isBlank gap = true)
    (hwords : Text.words (slotText cs) = first :: Text.words rest) :
    ReadAs cs ⟨String.ofList first, false, some ((Text.words rest).flatMap options)⟩
  /-- A single word is cut at bars, and what comes first is the type. -/
  | word {type others} (h : Lists cs) (hblank : ∀ c ∈ slotText cs, Text.isBlank c = false)
    (hlisted : listed cs = type :: others) : ReadAs cs ⟨type, false, some others⟩

/-- **The reader of slots** makes no more of a text than that. -/
theorem readAs_of_parse? {cs : List Char} {p : Parameter} (h : Parameter.parse? cs = some p) :
    ReadAs cs p := by
  by_cases hdots : cs = "...".toList
  · rw [Parameter.parse?, if_pos hdots, Option.some.injEq] at h
    exact h ▸ .dots hdots
  rw [Parameter.parse?, if_neg hdots, ← slotText] at h
  dsimp only at h
  by_cases hempty : (slotText cs).isEmpty = true
  · rw [if_pos hempty] at h
    cases h
  have hne : slotText cs ≠ [] := by simpa using hempty
  rw [if_neg hempty] at h
  by_cases hquoted : isQuoted (slotText cs) = true
  · rw [if_pos hquoted, Option.some.injEq] at h
    exact h ▸ .quoted hquoted
  rw [if_neg hquoted] at h
  by_cases hbar : (slotText cs).contains '|' = true
  · have hlists : Lists cs := ⟨by simpa using hbar, by simpa using hquoted⟩
    have hsolid : Text.Solid (slotText cs) := Text.solid_trim hne
    rw [if_pos hbar] at h
    obtain ⟨hblank, hwords⟩ | ⟨first, gap, rest, htext, hfirst, hgap, hwords, hothers⟩ :=
      words_cases hsolid
    · have hlisted : listed cs = options (slotText cs) := by
        rw [listed_eq, hwords, List.flatMap_singleton]
      rw [hwords] at h
      cases hoptions : options (slotText cs) with
      | nil =>
        rw [hoptions] at h
        cases h
      | cons type others =>
        rw [hoptions] at h hlisted
        cases h
        exact .word hlists hblank hlisted
    · obtain ⟨value, values, hrest⟩ := List.exists_cons_of_ne_nil hothers
      rw [hwords, hrest] at h
      cases h
      rw [← hrest]
      exact .words hlists htext hfirst hgap hwords
  · rw [if_neg hbar, Option.some.injEq] at h
    exact h ▸ .typed hne (by simpa using hbar)

/-! ### Accepted types -/

namespace ReadAs

variable {cs : List Char} {p : Parameter}

/-- A slot that lists something is read as one word or as several. -/
theorem not_lists (h : ReadAs cs p) (hp : p.alternatives = none) : ¬ Lists cs := by
  rintro ⟨hbar, hquoted⟩
  cases h with
  | dots hdots =>
    rw [hdots] at hbar
    exact absurd hbar (by decide)
  | quoted h =>
    rw [h] at hquoted
    cases hquoted
  | typed _ h => exact h hbar
  | words | word => cases hp

/-- All accepted types but the first are listed by the slot. -/
theorem mem_listed (h : ReadAs cs p) {t : String} (ht : t ∈ p.alternatives.getD []) :
    t ∈ listed cs := by
  cases h with
  | dots | quoted | typed => cases ht
  | words _ _ _ _ hwords =>
    rw [listed_eq, hwords, List.flatMap_cons]
    exact List.mem_append_right _ ht
  | word _ _ hlisted =>
    rw [hlisted]
    exact List.mem_cons_of_mem _ ht

/-- The first has no white space around it and no bracket in it. -/
theorem solid_type (h : ReadAs cs p) :
    Text.Solid p.type.toList ∧ ∀ c ∈ p.type.toList, c ≠ '<' ∧ c ≠ '>' := by
  cases h with
  | dots | quoted =>
    exact ⟨Text.solid_of_forall (by simp) (by simp [Text.isBlank]), by simp⟩
  | typed hne =>
    rw [String.toList_ofList]
    exact ⟨Text.solid_trim hne, bracket_not_mem_slotText⟩
  | @words first gap rest _ htext hfirst _ hwords =>
    rw [String.toList_ofList]
    have hmem : first ∈ Text.words (slotText cs) := by simp [hwords]
    obtain ⟨hne, hall⟩ := Text.of_mem_fullPieces hmem
    exact ⟨Text.solid_of_forall hne hfirst, fun c hc => bracket_not_mem_slotText c (hall c hc).1⟩
  | word _ _ hlisted =>
    obtain ⟨hsolid, hplain⟩ := isAtomic_of_mem_listed (hlisted ▸ List.mem_cons_self)
    exact ⟨hsolid, fun c hc => ⟨(hplain c hc).1, (hplain c hc).2.1⟩⟩

/-- **Bars in the first accepted type** are those in the first of several words. -/
theorem bar_mem_type_iff (h : ReadAs cs p) : '|' ∈ p.type.toList ↔ BarInFirstWord cs := by
  have hnone := h.not_lists
  constructor
  · intro hbar
    cases h with
    | dots | quoted => exact absurd hbar (by decide)
    | typed _ hfree => exact absurd hbar (by rwa [String.toList_ofList])
    | words hlists htext hfirst hgap _ =>
      rw [String.toList_ofList] at hbar
      exact ⟨hlists.2, _, _, _, htext, hbar, hfirst, hgap⟩
    | word _ _ hlisted =>
      have hatomic := isAtomic_of_mem_listed (hlisted ▸ List.mem_cons_self)
      exact absurd rfl (hatomic.plain _ hbar).2.2
  · intro hfirst
    obtain ⟨first, others, hread, hbar⟩ := hfirst.exists_words
    obtain ⟨hquoted, front, gap, rest, htext, hfront, -, hgap⟩ := hfirst
    have hlists : Lists cs := ⟨by rw [htext]; simp [hfront], hquoted⟩
    cases h with
    | dots | quoted | typed => exact absurd hlists (hnone rfl)
    | words _ _ _ _ hwords =>
      rw [hread] at hwords
      obtain ⟨rfl, -⟩ := List.cons.inj hwords
      rwa [String.toList_ofList]
    | word _ hblank _ =>
      have hfree := hblank gap (by simp [htext])
      rw [hgap] at hfree
      cases hfree

/-- **Without a bar in the first of several words** the accepted types are what the slot lists. -/
theorem accepted_eq_listed (h : ReadAs cs p) (hlists : Lists cs) (hfirst : ¬ BarInFirstWord cs) :
    p.accepted = listed cs := by
  have hnone := h.not_lists
  rw [← h.bar_mem_type_iff] at hfirst
  have hne := h.solid_type.1.ne_nil
  cases h with
  | dots | quoted | typed => exact absurd hlists (hnone rfl)
  | words _ _ _ _ hwords =>
    rw [String.toList_ofList] at hfirst hne
    rw [listed_eq, hwords, List.flatMap_cons, options_of_not_mem hne hfirst]
    rfl
  | word _ _ hlisted =>
    rw [hlisted]
    rfl

end ReadAs

/-- **Accepted types are atomic where the first of several words has no bar.**

Let a slot be read as a parameter.  All the types it accepts are atomic exactly if there is no bar
in the first of several words.  In any case none is empty, has white space around it or a bracket in
it, and all but the first are atomic.  Where they are atomic and the slot lists them, each text
between bars and white space is matched on its own: an argument fits exactly if its type is
compatible with one of these texts. -/
theorem accepted_atomic_iff {cs : List Char} {p : Parameter} (h : Parameter.parse? cs = some p) :
    ((∀ t ∈ p.accepted, IsAtomic t) ↔ ¬ BarInFirstWord cs) ∧
    (∀ t ∈ p.accepted, Text.Solid t.toList ∧ ∀ c ∈ t.toList, c ≠ '<' ∧ c ≠ '>') ∧
    (∀ t ∈ p.alternatives.getD [], IsAtomic t) ∧
    (Lists cs → ¬ BarInFirstWord cs → ∀ e : Expr, ArgumentTypes.fits e p = true ↔
      ∃ t ∈ listed cs, ArgumentTypes.compatible e.inferredType t = true) := by
  have hread := readAs_of_parse? h
  obtain ⟨hsolid, hplain⟩ := hread.solid_type
  have hothers : ∀ t ∈ p.alternatives.getD [], IsAtomic t :=
    fun t ht => isAtomic_of_mem_listed (hread.mem_listed ht)
  refine ⟨?_, ?_, hothers, fun hlists hfirst e => ?_⟩
  · rw [Parameter.accepted, List.forall_mem_cons, ← hread.bar_mem_type_iff]
    constructor
    · rintro ⟨htype, -⟩ hbar
      exact absurd rfl (htype.plain _ hbar).2.2
    · intro hbar
      refine ⟨⟨hsolid, fun c hc => ?_⟩, hothers⟩
      exact ⟨(hplain c hc).1, (hplain c hc).2, ne_of_mem_of_not_mem hc hbar⟩
  · rw [Parameter.accepted, List.forall_mem_cons]
    refine ⟨⟨hsolid, hplain⟩, fun t ht => ?_⟩
    obtain ⟨hother, hfree⟩ := hothers t ht
    exact ⟨hother, fun c hc => ⟨(hfree c hc).1, (hfree c hc).2.1⟩⟩
  · rw [ArgumentTypes.fits, hread.accepted_eq_listed hlists hfirst, List.any_eq_true]

/-- Bars and white space in any arrangement behind the first word. -/
theorem accepted_atomic_iff_loose_bars :
    ∃ cs p, cs = "<Number 1| 2 |-1>".toList ∧ Parameter.parse? cs = some p ∧ Lists cs ∧
      ¬ BarInFirstWord cs ∧ p.accepted = ["Number", "1", "2", "-1"] ∧
      (∀ t ∈ p.accepted, IsAtomic t) ∧
      ∀ e : Expr, ArgumentTypes.fits e p = true ↔
        ∃ t ∈ listed cs, ArgumentTypes.compatible e.inferredType t = true := by
  obtain ⟨cs, hcs⟩ : ∃ cs, cs = "<Number 1| 2 |-1>".toList := ⟨_, rfl⟩
  have hparse : Parameter.parse? cs = some ⟨"Number", false, some ["1", "2", "-1"]⟩ := by
    rw [hcs]
    decide +kernel
  have hlists : Lists cs := by
    rw [hcs]
    exact ⟨by decide +kernel, by decide +kernel⟩
  have hfirst : ¬ BarInFirstWord cs := by
    intro h
    obtain ⟨first, others, hwords, hbar⟩ := h.exists_words
    have hread : Text.words (slotText cs) =
        ["Number".toList, "1|".toList, "2".toList, "|-1".toList] := by
      rw [hcs]
      decide +kernel
    rw [hread] at hwords
    obtain ⟨rfl, -⟩ := List.cons.inj hwords
    exact absurd hbar (by decide)
  obtain ⟨hatomic, -, -, hfits⟩ := accepted_atomic_iff hparse
  exact ⟨cs, _, hcs, hparse, hlists, hfirst, rfl, hatomic.2 hfirst, hfits hlists hfirst⟩

/-- **A type that a slot lists, and that does not fit it.**  The first word is taken as it stands,
and no argument is of a type with a bar in it. -/
theorem listed_type_refused :
    ∃ cs p, cs = "<String|Boolean Number>".toList ∧ Parameter.parse? cs = some p ∧
      p.accepted = ["String|Boolean", "Number"] ∧ ¬ IsAtomic "String|Boolean" ∧
      listed cs = ["String", "Boolean", "Number"] ∧
      ∀ (t : String) (s : Span), (Expr.text t s).inferredType = "String" ∧
        ArgumentTypes.fits (.text t s) p = false := by
  refine ⟨_, ⟨"String|Boolean", false, some ["Number"]⟩, rfl, by decide +kernel, rfl, ?_,
    by decide +kernel, fun t s => ⟨rfl, ?_⟩⟩
  · intro h
    exact absurd rfl (h.plain '|' (by decide)).2.2
  · rfl

end Signature

end GeoLint
