import GeoLint.Proofs.Catalogue.Notation
import Mathlib.Data.List.Infix

/-!
# Which parenthesis ends a parameter list

Overloads are told apart by counting parentheses: a bar inside them does not separate anything.  By
this count the first parenthesis of an overload is closed by one certain other, and what stands
between the two is its `FirstGroup` (`exists_firstGroup`, `FirstGroup.unique`).

The reader of parameter lists does not count.  It stops at the first parenthesis that closes
anything, so that it reads the whole group only if there are no parentheses in it.  That is
`parameterList?_of_balanced`, and `parameters_lost_behind_parenthesis` is an overload that loses a
parameter by it.
-/

namespace GeoLint

namespace Signature

/-- Every parenthesis of the text has its partner. -/
structure Balanced (cs : List Char) : Prop where
  /-- None closes what nothing opened. -/
  opened : ∀ front ∈ cs.inits, front.count ')' ≤ front.count '('
  /-- None stays open. -/
  closed : cs.count '(' = cs.count ')'

instance : DecidablePred Balanced := fun _ =>
  decidable_of_iff (_ ∧ _) ⟨fun h => ⟨h.1, h.2⟩, fun h => ⟨h.opened, h.closed⟩⟩

/-- From `depth` open parentheses on, one is open all through the text. -/
def StaysInside (depth : Nat) (cs : List Char) : Prop :=
  ∀ front ∈ cs.inits, 0 < front.foldl parenDepth depth

instance (depth : Nat) : DecidablePred (StaysInside depth) := fun _ =>
  inferInstanceAs (Decidable (∀ _ ∈ _, _))

/-- What stands between the first parenthesis of a branch and the one that closes it, by the depth
that the bars between overloads are judged by. -/
structure FirstGroup (branch inner : List Char) : Prop where
  /-- A parenthesis in front, which is the first, and one behind. -/
  parens : ∃ before after, branch = before ++ '(' :: (inner ++ ')' :: after) ∧ '(' ∉ before
  /-- The one in front is open up to the one behind. -/
  inside : StaysInside 1 inner
  /-- Then no other is. -/
  level : inner.foldl parenDepth 1 = 1

/-! ### Counting -/

section StaysInside

variable {depth : Nat} {c : Char} {cs : List Char}

theorem staysInside_nil : StaysInside depth [] ↔ 0 < depth := by
  simp [StaysInside]

theorem staysInside_cons :
    StaysInside depth (c :: cs) ↔ 0 < depth ∧ StaysInside (parenDepth depth c) cs := by
  simp [StaysInside]

/-- As long as something is open, the depth is the number of parentheses that were opened and not
closed. -/
theorem StaysInside.foldl_add_count (h : StaysInside depth cs) :
    cs.foldl parenDepth depth + cs.count ')' = depth + cs.count '(' := by
  induction cs generalizing depth with
  | nil => rfl
  | cons c cs ih =>
    obtain ⟨hdepth, hcs⟩ := staysInside_cons.1 h
    have hcount := ih hcs
    rw [List.foldl_cons, List.count_cons, List.count_cons]
    grind [parenDepth]

/-- Bars do not cut where something is open. -/
theorem StaysInside.cutBars_append (h : StaysInside depth cs) (rest : List Char) :
    cutBars depth (cs ++ rest) = cs.foldr grow (cutBars (cs.foldl parenDepth depth) rest) := by
  induction cs generalizing depth with
  | nil => rfl
  | cons c cs ih =>
    obtain ⟨hdepth, hcs⟩ := staysInside_cons.1 h
    rw [List.cons_append, cutBars, if_neg (by simp [Nat.ne_of_gt hdepth]), ih hcs]
    rfl

/-- Where more is closed than opened, some parenthesis closes the one that was open. -/
theorem exists_staysInside (hdepth : 0 < depth) (h : cs.count '(' + depth ≤ cs.count ')') :
    ∃ inner after, cs = inner ++ ')' :: after ∧ StaysInside depth inner ∧
      inner.foldl parenDepth depth = 1 := by
  induction cs generalizing depth with
  | nil =>
    rw [List.count_nil, List.count_nil, Nat.zero_add] at h
    exact absurd hdepth (Nat.not_lt.2 h)
  | cons c cs ih =>
    by_cases hcloses : c = ')' ∧ depth = 1
    · obtain ⟨rfl, rfl⟩ := hcloses
      exact ⟨[], cs, rfl, staysInside_nil.2 Nat.one_pos, rfl⟩
    · rw [List.count_cons, List.count_cons] at h
      have hpos : 0 < parenDepth depth c := by grind [parenDepth]
      have hcount : cs.count '(' + parenDepth depth c ≤ cs.count ')' := by grind [parenDepth]
      obtain ⟨inner, after, rfl, hinside, hlevel⟩ := ih hpos hcount
      exact ⟨c :: inner, after, rfl, staysInside_cons.2 ⟨hdepth, hinside⟩, hlevel⟩

end StaysInside

/-! ### The first group -/

theorem takeWhile_ne_append {c : Char} {front : List Char} (h : c ∉ front) (rest : List Char) :
    (front ++ c :: rest).takeWhile (· ≠ c) = front := by
  rw [List.takeWhile_append_of_pos fun d hd => by simpa using ne_of_mem_of_not_mem hd h]
  simp

/-- **A branch with parentheses has a first group.** -/
theorem exists_firstGroup {branch : List Char} (h : Balanced branch) (hopen : '(' ∈ branch) :
    ∃ inner, FirstGroup branch inner := by
  obtain ⟨before, rest, rfl, hbefore⟩ := List.eq_append_cons_of_mem hopen
  have hclosing : before.count ')' = 0 := by
    have hle := h.opened before (by simp)
    rwa [List.count_eq_zero.2 hbefore, Nat.le_zero] at hle
  have hcount : rest.count '(' + 1 ≤ rest.count ')' := by
    have heq := h.closed
    simp only [List.count_append, List.count_eq_zero.2 hbefore, hclosing] at heq
    simpa using heq.le
  obtain ⟨inner, after, rfl, hinside, hlevel⟩ := exists_staysInside Nat.one_pos hcount
  exact ⟨inner, ⟨before, after, rfl, hbefore⟩, hinside, hlevel⟩

/-- What stays inside a parenthesis does not go on behind the one that closes it. -/
theorem StaysInside.eq_nil_of_closed {inner rest after after' : List Char}
    (h : StaysInside 1 (inner ++ rest)) (hlevel : inner.foldl parenDepth 1 = 1)
    (hrest : ')' :: after = rest ++ ')' :: after') : rest = [] := by
  cases rest with
  | nil => rfl
  | cons c rest =>
    obtain ⟨rfl, -⟩ := List.cons.inj hrest
    have hpos := h (inner ++ [')']) (by simp)
    rw [List.foldl_append, hlevel] at hpos
    exact absurd hpos (by decide)

namespace FirstGroup

variable {branch inner : List Char}

/-- **A branch has one first group.** -/
theorem unique {other : List Char} (h : FirstGroup branch inner) (h' : FirstGroup branch other) :
    inner = other := by
  obtain ⟨before, after, rfl, hbefore⟩ := h.parens
  obtain ⟨before', after', hbranch, hbefore'⟩ := h'.parens
  obtain rfl : before = before' := by
    rw [← takeWhile_ne_append hbefore, hbranch, takeWhile_ne_append hbefore']
  have hrest := List.append_cancel_left hbranch
  rw [List.cons.injEq, List.append_eq_append_iff] at hrest
  obtain ⟨-, ⟨rest, rfl, hrest⟩ | ⟨rest, rfl, hrest⟩⟩ := hrest
  · rw [h'.inside.eq_nil_of_closed h.level hrest, List.append_nil]
  · rw [h.inside.eq_nil_of_closed h'.level hrest, List.append_nil]

/-- The splitter of overloads never cuts a first group. -/
theorem whole (h : FirstGroup branch inner) : Whole (cutBars 0) ('(' :: (inner ++ [')'])) := by
  have hinner : Whole (cutBars 1) inner := by
    intro cs
    rw [h.inside.cutBars_append, h.level]
  exact hinner.enclosed (fun cs => by simp [cutBars, parenDepth])
    (fun cs => by simp [cutBars, parenDepth])

/-- What is opened in a group is closed in it. -/
theorem closing_mem_iff (h : FirstGroup branch inner) : ')' ∈ inner ↔ '(' ∈ inner := by
  have hcount := h.inside.foldl_add_count
  rw [h.level] at hcount
  rw [← List.count_pos_iff, ← List.count_pos_iff]
  omega

/-- **The list that is read ends at the first parenthesis that closes anything.** -/
theorem parameterList?_eq (h : FirstGroup branch inner) (hline : '\n' ∉ branch) :
    parameterList? branch = some (inner.takeWhile (· ≠ ')')) := by
  obtain ⟨before, after, rfl, hbefore⟩ := h.parens
  have hread {front rest : List Char} (hfront : ')' ∉ front) (hinner : inner = front ++ rest) :
      ∀ c ∈ front, c ≠ ')' ∧ c ≠ '\n' := by
    intro c hc
    have hc' : c ∈ before ++ '(' :: (inner ++ ')' :: after) := by simp [hinner, hc]
    exact ⟨ne_of_mem_of_not_mem hc hfront, ne_of_mem_of_not_mem hc' hline⟩
  -- The first that closes anything stands in the group, or it is the one behind it.
  by_cases hclosing : ')' ∈ inner
  · obtain ⟨front, rest, hinner, hfront⟩ := List.eq_append_cons_of_mem hclosing
    rw [hinner, takeWhile_ne_append hfront, List.append_assoc, List.cons_append]
    exact parameterList?_append hbefore (hread hfront hinner) _
  · have hall : inner.takeWhile (· ≠ ')') = inner :=
      List.takeWhile_eq_self_iff.2 fun c hc => by simpa using ne_of_mem_of_not_mem hc hclosing
    rw [hall]
    exact parameterList?_append hbefore (hread hclosing (List.append_nil inner).symm) after

/-- The whole group is read if there are no parentheses in it. -/
theorem parameterList?_eq_some_iff (h : FirstGroup branch inner) (hline : '\n' ∉ branch) :
    parameterList? branch = some inner ↔ '(' ∉ inner := by
  rw [h.parameterList?_eq hline, Option.some.injEq, List.takeWhile_eq_self_iff,
    ← h.closing_mem_iff]
  simp only [ne_eq, decide_eq_true_eq]
  exact ⟨fun hall hmem => hall _ hmem rfl, fun hmem c hc => ne_of_mem_of_not_mem hc hmem⟩

end FirstGroup

/-- **Where the parameter list of an overload ends.**  Let the parentheses of a branch be balanced,
let there be some, and let it stand on one line.  By the depth that keeps bars in parentheses from
separating overloads, it has exactly one first group, which is never cut.  The parameters are those
of the group up to the first parenthesis in it that closes anything, and so the whole group is read
exactly if no parenthesis stands in it. -/
theorem parameterList?_of_balanced {branch : List Char} (hbalanced : Balanced branch)
    (hopen : '(' ∈ branch) (hline : '\n' ∉ branch) :
    ∃ inner, FirstGroup branch inner ∧ (∀ other, FirstGroup branch other → other = inner) ∧
      Whole (cutBars 0) ('(' :: (inner ++ [')'])) ∧
      parameterList? branch = some (inner.takeWhile (· ≠ ')')) ∧
      (parameterList? branch = some inner ↔ '(' ∉ inner) ∧
      ∀ r : Record, (Overload.ofBranch r branch).parameters =
        (slots (inner.takeWhile (· ≠ ')'))).filterMap Parameter.parse? := by
  obtain ⟨inner, hinner⟩ := exists_firstGroup hbalanced hopen
  have hlist := hinner.parameterList?_eq hline
  refine ⟨inner, hinner, fun other hother => hother.unique hinner, hinner.whole, hlist,
    hinner.parameterList?_eq_some_iff hline, fun r => ?_⟩
  rw [Overload.ofBranch, parameters, hlist]

/-- The list ends inside the type of the only parameter. -/
theorem parameterList?_of_balanced_dimension :
    ∃ branch inner, branch = "F( <Point (2D)> ) or F()".toList ∧ Balanced branch ∧
      '(' ∈ branch ∧ '\n' ∉ branch ∧ FirstGroup branch inner ∧
      inner = " <Point (2D)> ".toList ∧ parameterList? branch = some " <Point (2D".toList := by
  have hbalanced : Balanced "F( <Point (2D)> ) or F()".toList := by decide
  have hgroup : FirstGroup "F( <Point (2D)> ) or F()".toList " <Point (2D)> ".toList :=
    ⟨⟨['F'], " or F()".toList, by decide, by decide⟩, by decide, by decide⟩
  obtain ⟨inner, -, hunique, -, hlist, -⟩ :=
    parameterList?_of_balanced hbalanced (by decide) (by decide)
  obtain rfl := hunique _ hgroup
  exact ⟨_, _, rfl, hbalanced, by decide, by decide, hgroup, rfl, hlist⟩

/-- **A parameter behind a parenthesis in the list is lost.**  The group has two parameters, and the
overload has one, of a type that ends in the middle. -/
theorem parameters_lost_behind_parenthesis :
    ∃ branch inner, branch = "F( <Point (2D)>, <Number> )".toList ∧ Balanced branch ∧
      '(' ∈ branch ∧ '\n' ∉ branch ∧ FirstGroup branch inner ∧
      (slots inner).filterMap Parameter.parse? =
        [⟨"Point (2D)", false, none⟩, ⟨"Number", false, none⟩] ∧
      ∀ r : Record, r.signature = String.ofList branch →
        r.overloads.map Overload.parameters = [[⟨"Point (2D", false, none⟩]] := by
  have hgroup : FirstGroup "F( <Point (2D)>, <Number> )".toList " <Point (2D)>, <Number> ".toList :=
    ⟨⟨['F'], [], by decide, by decide⟩, by decide, by decide⟩
  have hread : (branches "F( <Point (2D)>, <Number> )".toList).map
      (fun b => parameters (Text.trim b)) = [[⟨"Point (2D", false, none⟩]] := by
    decide
  refine ⟨_, _, rfl, by decide, by decide, by decide, hgroup, by decide, fun r hr => ?_⟩
  rw [Record.overloads, hr, String.toList_ofList, List.map_map]
  exact hread

end Signature

end GeoLint
