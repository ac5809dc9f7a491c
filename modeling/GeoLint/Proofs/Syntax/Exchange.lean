import GeoLint.Proofs.Syntax.Completeness
import GeoLint.Proofs.Syntax.Moved

/-!
# What the parser's answers do not depend on

The parser looks at the kinds of the tokens it takes and of one token behind them.  So its answer
stays the same, but for places, if all tokens are moved and if what stands behind that one token is
exchanged.  An `Exchange` says what is put in the place of what.

Every function of the parser `Keeps` its answer under an exchange: a result that leaves the tokens
to be exchanged untouched is found again, and a complaint about a token in front of them, or about
the first of them if it stays the same, is made again.  Where the parser runs into the exchanged
tokens nothing is said.  `Keeps.bind` settles that case once.

`statements_of_error` and `statements_of_ok` put this together for scripts.  Three uses matter: all
tokens move and nothing else changes (`script_moved`), the tokens behind the offending one change
(`statements_same_error`), and more tokens follow a script (`statements_append`).
-/

namespace GeoLint

namespace Parsing

open Token (Kind)
open Grammar

/-! ### What an answer leaves -/

/-- The tokens that are left behind a result. -/
class Leaves (α : Type) where
  /-- The tokens that are left. -/
  rest : α → List Token

instance {α : Type} : Leaves (Parsed α) := ⟨Parsed.rest⟩

instance {α : Type} : Leaves (α × List Token) := ⟨Prod.snd⟩

/-- The tokens behind a result, or from the offending one on. -/
def left {α : Type} [Leaves α] : Except Stuck α → List Token
  | .ok a => Leaves.rest a
  | .error stuck => stuck.rest

theorem Answers.left_suffix {α : Type} [Leaves α] {ts : List Token} {P : α → Prop}
    {r : Except Stuck α} (h : Answers ts P r) (hP : ∀ a, P a → Leaves.rest a <:+ ts) :
    left r <:+ ts := by
  cases r with
  | ok a => exact hP a h
  | error stuck => exact h

theorem rest_suffix_of_ok {α : Type} [Leaves α] {ts : List Token} {r : Except Stuck α} {a : α}
    (h : left r <:+ ts) (ha : r = .ok a) : Leaves.rest a <:+ ts := by
  rwa [ha] at h

theorem left_bind {α β : Type} [Leaves α] [Leaves β] {ts : List Token} {r : Except Stuck α}
    {k : α → Except Stuck β} (h : left r <:+ ts)
    (hk : ∀ a, r = .ok a → left (k a) <:+ Leaves.rest a) : left (r >>= k) <:+ ts := by
  cases r with
  | ok a => exact (hk a rfl).trans h
  | error stuck => exact h

/-- An exchange of tokens: those in front are moved by `place`, and `after` stands where `before`
stood.  Inside a statement the parser never looks for a line end, and for any other token that it
may look for, both start alike. -/
structure Exchange where
  /-- Where things are moved to. -/
  place : Position → Position
  /-- The tokens that are taken out. -/
  before : List Token
  /-- The tokens that are put in. -/
  after : List Token
  /-- They start alike, but for a line end. -/
  alike : ∀ kind, kind ≠ .newline → nextIs kind after = nextIs kind before

namespace Exchange

variable (x : Exchange)

/-- The second list of tokens is the first one after the exchange. -/
def Tokens (ts ts' : List Token) : Prop :=
  ∃ us, ts = us ++ x.before ∧ ts' = us.map (Token.moved x.place) ++ x.after

/-- The first of the exchanged tokens only moves. -/
def SameHead : Prop := x.after.head? = x.before.head?.map (Token.moved x.place)

/-- The second answer is the first one after the exchange, with results related by `R`. -/
def Keeps {α : Type} [Leaves α] (R : α → α → Prop) (r r' : Except Stuck α) : Prop :=
  match r with
  | .ok a => x.before <:+ Leaves.rest a → ∃ a', r' = .ok a' ∧ R a a'
  | .error stuck => ∀ us, stuck.rest = us ++ x.before → (us = [] → x.SameHead) →
      r' = .error ⟨stuck.complaint, us.map (Token.moved x.place) ++ x.after⟩

/-- The second piece of a tree is the first one after the exchange. -/
def Tree {α : Type} (move : α → α) (p p' : Parsed α) : Prop :=
  x.Tokens p.rest p'.rest ∧ p'.value = move p.value ∧ p'.last = x.place p.last

/-- The same, for pieces of which only what is left is kept beside them. -/
def Pair {α : Type} (move : α → α) (a a' : α × List Token) : Prop :=
  x.Tokens a.2 a'.2 ∧ a'.1 = move a.1

variable {x} {α β : Type} [Leaves α] [Leaves β]

theorem Tokens.cons {ts ts' : List Token} (h : x.Tokens ts ts') (t : Token) :
    x.Tokens (t :: ts) (t.moved x.place :: ts') := by
  obtain ⟨us, rfl, rfl⟩ := h
  exact ⟨t :: us, rfl, rfl⟩

theorem Tokens.nextIs {ts ts' : List Token} (h : x.Tokens ts ts') (kind : Kind)
    (hkind : kind ≠ .newline) : nextIs kind ts' = nextIs kind ts := by
  obtain ⟨us, rfl, rfl⟩ := h
  cases us with
  | nil => exact x.alike kind hkind
  | cons u us => rfl

/-- A token of some kind comes next: it is one of those exchanged, or it only moves. -/
theorem Tokens.cases {ts ts' : List Token} (h : x.Tokens ts ts') {kind : Kind}
    (hnext : Parsing.nextIs kind ts = true) :
    (∃ t rest, ts = t :: rest ∧ t.kind = kind ∧ rest.length < x.before.length) ∨
      ∃ t us us', ts = t :: us ∧ ts' = t.moved x.place :: us' ∧ t.kind = kind ∧
        x.Tokens us us' := by
  obtain ⟨us, rfl, rfl⟩ := h
  cases us with
  | nil =>
    cases hbefore : x.before with
    | nil =>
      rw [hbefore] at hnext
      cases hnext
    | cons t rest =>
      rw [hbefore] at hnext
      exact .inl ⟨t, rest, rfl, of_decide_eq_true hnext, Nat.lt_succ_self _⟩
  | cons t us => exact .inr ⟨t, _, _, rfl, rfl, of_decide_eq_true hnext, us, rfl, rfl⟩

theorem keeps_ok {R : α → α → Prop} {a a' : α} (h : R a a') : x.Keeps R (.ok a) (.ok a') :=
  fun _ => ⟨a', rfl, h⟩

theorem keeps_error {R : α → α → Prop} {ts ts' : List Token} (h : x.Tokens ts ts')
    (complaint : Complaint) : x.Keeps R (.error ⟨complaint, ts⟩) (.error ⟨complaint, ts'⟩) := by
  obtain ⟨us, rfl, rfl⟩ := h
  intro vs hvs _
  rw [List.append_cancel_right hvs]

/-- Where the exchanged tokens have been touched there is nothing to keep. -/
theorem keeps_of_suffix {R : α → α → Prop} {r r' : Except Stuck α} {rest : List Token}
    (h : left r <:+ rest) (hrest : rest.length < x.before.length) : x.Keeps R r r' := by
  have hshort : ¬ x.before <:+ left r := fun hc => by
    have hle := hc.length_le
    have hle' := h.length_le
    omega
  cases r with
  | ok a => exact fun hc => absurd hc hshort
  | error stuck => exact fun us hus _ => absurd ⟨us, hus.symm⟩ hshort

theorem Keeps.bind {R : α → α → Prop} {S : β → β → Prop} {r r' : Except Stuck α}
    {k k' : α → Except Stuck β} (h : x.Keeps R r r')
    (hk : ∀ a a', r = .ok a → r' = .ok a' → R a a' → x.Keeps S (k a) (k' a'))
    (hleft : ∀ a, r = .ok a → left (k a) <:+ Leaves.rest a) :
    x.Keeps S (r >>= k) (r' >>= k') := by
  cases r with
  | error stuck =>
    intro us hus hhead
    rw [h us hus hhead]
    rfl
  | ok a =>
    by_cases hbefore : x.before <:+ Leaves.rest a
    · obtain ⟨a', rfl, hR⟩ := h hbefore
      exact hk a a' rfl rfl hR
    · -- What has touched the exchanged tokens does not give them back.
      have hrest := hleft a rfl
      change x.Keeps S (k a) _
      cases hka : k a with
      | ok b =>
        rw [hka] at hrest
        exact fun hc => absurd (hc.trans hrest) hbefore
      | error stuck =>
        rw [hka] at hrest
        exact fun us hus _ => absurd (List.IsSuffix.trans ⟨us, hus.symm⟩ hrest) hbefore

end Exchange

open Exchange

/-! ### Single tokens -/

theorem expect_of_not {kind : Kind} {ts : List Token} (h : nextIs kind ts = false)
    (complaint : Complaint) : expect kind complaint ts = .error ⟨complaint, ts⟩ := by
  cases ts with
  | nil => rfl
  | cons t ts => rw [expect, if_neg (of_decide_eq_false h)]

theorem exists_cons_of_nextIs {kind : Kind} {ts : List Token} (h : nextIs kind ts = true) :
    ∃ t us, ts = t :: us ∧ t.kind = kind := by
  cases ts with
  | nil => cases h
  | cons t us => exact ⟨t, us, rfl, of_decide_eq_true h⟩

theorem left_expect (kind : Kind) (complaint : Complaint) (ts : List Token) :
    left (expect kind complaint ts) <:+ ts := by
  refine (answers_expect kind complaint ts).left_suffix fun a ha => ?_
  rw [ha.1]
  exact List.suffix_cons _ _

section Statements

variable {x : Exchange} {ts ts' : List Token}

theorem keeps_expect {kind : Kind} (hkind : kind ≠ .newline) (complaint : Complaint)
    (h : x.Tokens ts ts') : x.Keeps (x.Pair (Token.moved x.place)) (expect kind complaint ts)
      (expect kind complaint ts') := by
  cases hnext : nextIs kind ts with
  | false =>
    rw [expect_of_not hnext, expect_of_not ((h.nextIs kind hkind).trans hnext)]
    exact keeps_error h complaint
  | true =>
    obtain ⟨t, rest, rfl, ht, hrest⟩ | ⟨t, us, us', rfl, rfl, ht, hus⟩ := h.cases hnext
    · rw [expect_of_kind ht]
      exact keeps_of_suffix (List.suffix_refl rest) hrest
    · rw [expect_of_kind ht, expect_of_kind (show (t.moved x.place).kind = kind from ht)]
      exact keeps_ok ⟨hus, rfl⟩

/-! ### Sequences -/

theorem Sound.left_suffix {item : List Token → Except Stuck (Parsed Expr)} (h : Sound item)
    (ts : List Token) : left (item ts) <:+ ts := by
  refine (h ts).left_suffix ?_
  rintro p ⟨us, hp⟩
  exact hp.suffix

theorem Sound.rest_suffix {item : List Token → Except Stuck (Parsed Expr)} (h : Sound item)
    {ts : List Token} {p : Parsed Expr} (hp : item ts = .ok p) : p.rest <:+ ts :=
  rest_suffix_of_ok (h.left_suffix ts) hp

/-- The parser keeps the expressions that it finds. -/
def KeepsItem (x : Exchange) (item : List Token → Except Stuck (Parsed Expr)) : Prop :=
  ∀ ts ts', x.Tokens ts ts' → x.Keeps (x.Tree (Expr.moved x.place)) (item ts) (item ts')

variable {item : List Token → Except Stuck (Parsed Expr)}

section Sequences

variable (hitem : Sound item)

include hitem

theorem left_more (trailing : Bool) (fuel : Nat) (ts : List Token) :
    left (more item trailing fuel ts) <:+ ts := by
  refine (answers_more hitem trailing fuel ts).left_suffix ?_
  rintro a ⟨us, ks, hts, -⟩
  exact ⟨us ++ ks, by rw [hts, List.append_assoc]; rfl⟩

/-- A comma is used up. -/
theorem left_more_comma {k : Token} (hk : k.kind = .comma) (trailing : Bool) (fuel : Nat)
    (ts : List Token) : left (more item trailing (fuel + 1) (k :: ts)) <:+ ts := by
  rw [more, if_pos hk]
  split
  · exact List.suffix_refl _
  · refine left_bind (hitem.left_suffix ts) fun p _ => ?_
    exact left_bind (left_more hitem trailing fuel p.rest) fun a _ => List.suffix_refl _

theorem left_nameOrCall {f : Token} (hf : f.kind = .identifier) (ts : List Token) :
    left (nameOrCall item f ts) <:+ ts := by
  refine (answers_nameOrCall hitem hf ts).left_suffix ?_
  rintro p ⟨us, hp⟩
  exact ⟨us, (List.cons.inj hp.1).2.symm⟩

theorem left_items (close : Kind) (ts : List Token) : left (items item close ts) <:+ ts := by
  refine (answers_items hitem close ts).left_suffix ?_
  rintro a ⟨us, hts, -⟩
  exact ⟨us, hts.symm⟩

theorem left_enclosed (close : Kind) (complaint : Complaint) (ts : List Token) :
    left (enclosed item close complaint ts) <:+ ts := by
  refine (answers_enclosed hitem close complaint ts).left_suffix ?_
  rintro p ⟨us, c, hts, -⟩
  exact ⟨us ++ [c], by rw [hts, List.append_assoc]; rfl⟩

variable (hkeeps : KeepsItem x item)

include hkeeps

theorem keeps_more (trailing : Bool) {fuel fuel' : Nat} (h : x.Tokens ts ts')
    (hfuel : ts.length ≤ fuel) (hfuel' : ts'.length ≤ fuel') :
    x.Keeps (x.Pair (movedAll x.place)) (more item trailing fuel ts)
      (more item trailing fuel' ts') := by
  induction fuel generalizing ts ts' fuel' with
  | zero =>
    obtain rfl := List.length_eq_zero_iff.1 (Nat.le_zero.1 hfuel)
    have hstop : nextIs .comma ts' = false := h.nextIs _ (by decide)
    rw [stopsAt_of_ne_comma trailing hstop item fuel' hfuel']
    exact keeps_ok ⟨h, rfl⟩
  | succ fuel ih =>
    cases hcomma : nextIs .comma ts with
    | false =>
      have hstop : nextIs .comma ts' = false := (h.nextIs _ (by decide)).trans hcomma
      rw [stopsAt_of_ne_comma trailing hcomma item _ hfuel,
        stopsAt_of_ne_comma trailing hstop item fuel' hfuel']
      exact keeps_ok ⟨h, rfl⟩
    | true =>
      obtain ⟨k, rest, rfl, hk, hrest⟩ | ⟨k, us, us', rfl, rfl, hk, hus⟩ := h.cases hcomma
      · exact keeps_of_suffix (left_more_comma hitem hk trailing fuel rest) hrest
      cases fuel' with
      | zero => exact absurd hfuel' (Nat.not_succ_le_zero _)
      | succ fuel' =>
        rw [more, more, if_pos hk, if_pos (show (k.moved x.place).kind = .comma from hk),
          hus.nextIs .closeParen (by decide)]
        split
        · exact keeps_ok ⟨hus, rfl⟩
        · refine (hkeeps us us' hus).bind (fun p p' hp hp' hR => ?_) fun p hp => ?_
          · -- Behind an expression no more is left than behind the comma, so the fuel lasts.
            have hle := (hitem.rest_suffix hp).length_le
            have hle' := (hitem.rest_suffix hp').length_le
            have hmore := ih hR.1 (hle.trans (Nat.le_of_succ_le_succ hfuel))
              (hle'.trans (Nat.le_of_succ_le_succ hfuel'))
            refine hmore.bind (fun a a' _ _ ha => ?_) fun a _ => List.suffix_refl _
            refine keeps_ok ⟨ha.1, ?_⟩
            rw [movedAll, hR.2.1, ha.2]
          · exact left_bind (left_more hitem trailing fuel p.rest) fun a _ => List.suffix_refl _

theorem keeps_items {close : Kind} (hclose : close ≠ .newline) (h : x.Tokens ts ts') :
    x.Keeps (x.Pair (movedAll x.place)) (items item close ts) (items item close ts') := by
  rw [items, items, h.nextIs close hclose]
  split
  · exact keeps_ok ⟨h, rfl⟩
  · refine (hkeeps ts ts' h).bind (fun p p' _ _ hp => ?_) fun p _ => ?_
    · refine (keeps_more hitem hkeeps false hp.1 (Nat.le_refl _) (Nat.le_refl _)).bind
        (fun a a' _ _ ha => ?_) fun a _ => List.suffix_refl _
      refine keeps_ok ⟨ha.1, ?_⟩
      rw [movedAll, hp.2.1, ha.2]
    · exact left_bind (left_more hitem false _ p.rest) fun a _ => List.suffix_refl _

theorem keeps_enclosed {close : Kind} (hclose : close ≠ .newline) (complaint : Complaint)
    (h : x.Tokens ts ts') :
    x.Keeps (x.Tree (movedAll x.place)) (enclosed item close complaint ts)
      (enclosed item close complaint ts') := by
  rw [enclosed_eq, enclosed_eq]
  refine (keeps_items hitem hkeeps hclose h).bind (fun a a' _ _ ha => ?_) fun a _ => ?_
  · refine (keeps_expect hclose complaint ha.1).bind (fun b b' _ _ hb => ?_) fun b _ =>
      List.suffix_refl _
    refine keeps_ok ⟨hb.1, ha.2, ?_⟩
    change b'.1.position = _
    rw [hb.2]
    rfl
  · exact left_bind (left_expect close complaint a.2) fun b _ => List.suffix_refl _

theorem keeps_group (start : Position) (h : x.Tokens ts ts') :
    x.Keeps (x.Tree (Expr.moved x.place)) (group item start ts)
      (group item (x.place start) ts') := by
  cases hclose : nextIs .closeParen ts with
  | true =>
    obtain ⟨c, rest, rfl, hc, hrest⟩ | ⟨c, us, us', rfl, rfl, hc, hus⟩ := h.cases hclose
    · rw [group, if_pos hc]
      exact keeps_of_suffix (List.suffix_refl rest) hrest
    · rw [group, group, if_pos hc, if_pos (show (c.moved x.place).kind = .closeParen from hc)]
      exact keeps_ok ⟨hus, rfl, rfl⟩
  | false =>
    rw [group_of_not hitem start hclose,
      group_of_not hitem _ ((h.nextIs _ (by decide)).trans hclose)]
    refine (hkeeps ts ts' h).bind (fun p p' _ _ hp => ?_) fun p _ => ?_
    · rw [hp.1.nextIs .comma (by decide)]
      split
      · refine (keeps_more hitem hkeeps true hp.1 (Nat.le_refl _) (Nat.le_refl _)).bind
          (fun a a' _ _ ha => ?_) fun a _ => ?_
        · refine (keeps_expect (by decide) .unclosedGroup ha.1).bind (fun b b' _ _ hb => ?_)
            fun b _ => List.suffix_refl _
          refine keeps_ok ⟨hb.1, ?_, ?_⟩
          · rw [hp.2.1, ha.2, hb.2]
            rfl
          · change b'.1.position = _
            rw [hb.2]
            rfl
        · exact left_bind (left_expect _ _ a.2) fun b _ => List.suffix_refl _
      · refine (keeps_expect (by decide) .unclosedGroup hp.1).bind (fun b b' _ _ hb => ?_)
          fun b _ => List.suffix_refl _
        refine keeps_ok ⟨hb.1, hp.2.1, ?_⟩
        change b'.1.position = _
        rw [hb.2]
        rfl
    · split
      · refine left_bind (left_more hitem true _ p.rest) fun a _ => ?_
        exact left_bind (left_expect _ _ a.2) fun b _ => List.suffix_refl _
      · exact left_bind (left_expect _ _ p.rest) fun b _ => List.suffix_refl _

theorem keeps_nameOrCall (f : Token) (h : x.Tokens ts ts') :
    x.Keeps (x.Tree (Expr.moved x.place)) (nameOrCall item f ts)
      (nameOrCall item (f.moved x.place) ts') := by
  cases hparen : nextIs .openParen ts with
  | true =>
    obtain ⟨p, rest, rfl, hp, hrest⟩ | ⟨p, us, us', rfl, rfl, hp, hus⟩ := h.cases hparen
    · refine keeps_of_suffix ?_ hrest
      rw [nameOrCall, if_pos hp]
      exact left_bind (left_enclosed hitem _ _ rest) fun as _ => List.suffix_refl _
    · rw [nameOrCall, nameOrCall, if_pos hp,
        if_pos (show (p.moved x.place).kind = .openParen from hp)]
      refine (keeps_enclosed hitem hkeeps (by decide) .unclosedCall hus).bind
        (fun as as' _ _ has => ?_) fun as _ => List.suffix_refl _
      refine keeps_ok ⟨has.1, ?_, has.2.2⟩
      rw [has.2.1, has.2.2]
      rfl
  | false =>
    rw [nameOrCall_eq_ok hparen, nameOrCall_eq_ok ((h.nextIs _ (by decide)).trans hparen)]
    exact keeps_ok ⟨h, rfl, rfl⟩

theorem keeps_starting (t : Token) (h : x.Tokens ts ts') :
    x.Keeps (x.Tree (Expr.moved x.place)) (starting item t ts)
      (starting item (t.moved x.place) ts') := by
  rw [starting, starting, Token.kind_moved, Token.text_moved]
  split
  · split
    · exact keeps_ok ⟨h, rfl, rfl⟩
    · exact keeps_error (h.cons t) _
  · exact keeps_ok ⟨h, rfl, rfl⟩
  · exact keeps_ok ⟨h, rfl, rfl⟩
  · refine (keeps_enclosed hitem hkeeps (by decide) .unclosedList h).bind
      (fun es es' _ _ hes => ?_) fun es _ => List.suffix_refl _
    refine keeps_ok ⟨hes.1, ?_, hes.2.2⟩
    rw [hes.2.1, hes.2.2]
    rfl
  · exact keeps_group hitem hkeeps t.position h
  · exact keeps_nameOrCall hitem hkeeps t h
  · exact keeps_error (h.cons t) _

end Sequences

/-- An expression takes its first token, or the parser refuses this token whatever follows. -/
theorem left_starting (hitem : Sound item) (t : Token) (ts : List Token) :
    left (starting item t ts) <:+ ts ∨ ∃ complaint, ∀ place ts',
      starting item (t.moved place) ts' = .error ⟨complaint, t.moved place :: ts'⟩ := by
  simp only [starting, Token.kind_moved, Token.text_moved]
  split
  case h_1 =>
    split
    · exact .inl (List.suffix_refl _)
    · exact .inr ⟨_, fun _ _ => rfl⟩
  case h_2 | h_3 => exact .inl (List.suffix_refl _)
  case h_4 => exact .inl (left_bind (left_enclosed hitem _ _ ts) fun es _ => List.suffix_refl _)
  case h_5 ho =>
    refine .inl ((answers_group hitem ho ts).left_suffix ?_)
    rintro p ⟨us, c, hts, -⟩
    exact ⟨us ++ [c], by rw [hts, List.append_assoc]; rfl⟩
  case h_6 hf => exact .inl (left_nameOrCall hitem hf ts)
  case h_7 => exact .inr ⟨_, fun _ _ => rfl⟩

/-! ### Expressions and statements -/

theorem keeps_expression (x : Exchange) (depth : Nat) : KeepsItem x (expression depth) := by
  induction depth with
  | zero => exact fun ts ts' h => keeps_error h _
  | succ depth ih =>
    have hitem := sound_expression depth
    rintro _ _ ⟨us, rfl, rfl⟩
    cases us with
    | cons t us => exact keeps_starting hitem ih t ⟨us, rfl, rfl⟩
    | nil =>
      rw [List.nil_append, List.map_nil, List.nil_append]
      cases hbefore : x.before with
      | nil =>
        -- The script ends here, and does so after the exchange if the first token is kept.
        intro vs hvs hhead
        obtain ⟨rfl, -⟩ := List.append_eq_nil_iff.1 hvs.symm
        have hafter : x.after = [] := by
          have hsame := hhead rfl
          rw [SameHead, hbefore] at hsame
          exact List.head?_eq_none_iff.1 hsame
        rw [hafter]
        rfl
      | cons t rest =>
        obtain hleft | ⟨complaint, hrefused⟩ := left_starting hitem t rest
        · exact keeps_of_suffix hleft (by rw [hbefore]; exact Nat.lt_succ_self _)
        · have hanswer : expression (depth + 1) (t :: rest) = .error ⟨complaint, t :: rest⟩ :=
            hrefused id rest
          rw [hanswer]
          intro vs hvs hhead
          obtain rfl : vs = [] := List.append_left_eq_self.1 (hvs.symm.trans hbefore.symm)
          have hsame := hhead rfl
          rw [SameHead, hbefore] at hsame
          obtain ⟨rest', hafter⟩ := List.head?_eq_some_iff.1 hsame
          rw [hafter]
          exact hrefused x.place rest'

theorem keeps_callStatement (start : Position) (f : Token) (h : x.Tokens ts ts') :
    x.Keeps (x.Tree (Statement.moved x.place)) (callStatement start f ts)
      (callStatement (x.place start) (f.moved x.place) ts') := by
  refine (keeps_expect (by decide) .expectedArguments h).bind (fun a a' _ _ ha => ?_) fun a _ => ?_
  · have hkeeps := keeps_expression x maxDepth
    refine (keeps_enclosed (sound_expression _) hkeeps (by decide) .unclosedCommand ha.1).bind
      (fun as as' _ _ has => ?_) fun as _ => List.suffix_refl _
    refine keeps_ok ⟨has.1, ?_, has.2.2⟩
    rw [has.2.1, has.2.2]
    rfl
  · exact left_bind (left_enclosed (sound_expression _) _ _ a.2) fun as _ => List.suffix_refl _

theorem startsCall_iff (ts : List Token) :
    StartsCall ts ↔ nextIs .identifier ts = true ∧ nextIs .openParen ts.tail = true := by
  constructor
  · rintro ⟨f, p, rest, rfl, hf, hp⟩
    exact ⟨nextIs_of_kind hf _, nextIs_of_kind hp rest⟩
  · rintro ⟨hname, hparen⟩
    obtain ⟨f, us, rfl, hf⟩ := exists_cons_of_nextIs hname
    obtain ⟨p, rest, hus, hp⟩ := exists_cons_of_nextIs hparen
    obtain rfl : us = p :: rest := hus
    exact ⟨f, p, rest, rfl, hf, hp⟩

theorem left_callStatement (start : Position) (f : Token) (ts : List Token) :
    left (callStatement start f ts) <:+ ts := by
  refine (answers_callStatement start f ts).left_suffix ?_
  rintro p ⟨o, us, c, hts, -⟩
  exact ⟨o :: (us ++ [c]), by rw [hts]; simp; rfl⟩

theorem left_assignment (target : Token) (ts : List Token) :
    left (assignment target ts) <:+ ts := by
  by_cases hcall : StartsCall ts
  · obtain ⟨f, p, rest, rfl, hf, hp⟩ := hcall
    rw [assignment_call target hf hp]
    exact (left_callStatement _ f _).trans (List.suffix_cons f _)
  · rw [assignment_plain target hcall]
    exact left_bind ((sound_expression _).left_suffix ts) fun e _ => List.suffix_refl _

/-- Of an expression that starts with a name, the name at least is taken. -/
theorem left_expression_name {depth : Nat} (hdepth : depth ≠ 0) {f : Token}
    (hf : f.kind = .identifier) (ts : List Token) : left (expression depth (f :: ts)) <:+ ts := by
  obtain ⟨inner, rfl⟩ := Nat.exists_eq_succ_of_ne_zero hdepth
  simp only [expression, starting, hf]
  exact left_nameOrCall (sound_expression inner) hf ts

/-- Of an assignment to what starts with a name, the name at least is taken. -/
theorem left_assignment_name (target : Token) {f : Token} (hf : f.kind = .identifier)
    (ts : List Token) : left (assignment target (f :: ts)) <:+ ts := by
  by_cases hcall : StartsCall (f :: ts)
  · obtain ⟨_, p, rest, hts, -, hp⟩ := hcall
    obtain ⟨rfl, rfl⟩ := List.cons.inj hts
    rw [assignment_call target hf hp]
    exact left_callStatement _ f _
  · rw [assignment_plain target hcall]
    have hname := left_expression_name (by decide : maxDepth ≠ 0) hf ts
    exact left_bind hname fun e _ => List.suffix_refl _

theorem keeps_assignment (target : Token) (h : x.Tokens ts ts') :
    x.Keeps (x.Tree (Statement.moved x.place)) (assignment target ts)
      (assignment (target.moved x.place) ts') := by
  have hplain (hts : ¬ StartsCall ts) (hts' : ¬ StartsCall ts') :
      x.Keeps (x.Tree (Statement.moved x.place)) (assignment target ts)
        (assignment (target.moved x.place) ts') := by
    rw [assignment_plain target hts, assignment_plain _ hts']
    refine (keeps_expression x maxDepth ts ts' h).bind (fun e e' _ _ he => ?_) fun e _ =>
      List.suffix_refl _
    refine keeps_ok ⟨he.1, ?_, he.2.2⟩
    rw [he.2.1, he.2.2]
    rfl
  cases hname : nextIs .identifier ts with
  | false =>
    refine hplain ?_ ?_
    · rintro ⟨f, p, rest, rfl, hf, -⟩
      exact of_decide_eq_false hname hf
    · rintro ⟨f, p, rest, rfl, hf, -⟩
      exact of_decide_eq_false ((h.nextIs _ (by decide)).trans hname) hf
  | true =>
    -- The look-ahead goes behind the name, so the name has to be kept.
    obtain ⟨f, rest, rfl, hf, hrest⟩ | ⟨f, us, us', rfl, rfl, hf, hus⟩ := h.cases hname
    · exact keeps_of_suffix (left_assignment_name target hf rest) hrest
    have hf' : (f.moved x.place).kind = .identifier := hf
    have hparen' : nextIs .openParen us' = nextIs .openParen us := hus.nextIs _ (by decide)
    cases hparen : nextIs .openParen us with
    | false =>
      rw [hparen] at hparen'
      exact hplain (by simp [startsCall_iff, hparen]) (by simp [startsCall_iff, hparen'])
    | true =>
      rw [hparen] at hparen'
      obtain ⟨p, rest, rfl, hp⟩ := exists_cons_of_nextIs hparen
      obtain ⟨p', rest', rfl, hp'⟩ := exists_cons_of_nextIs hparen'
      rw [assignment_call target hf hp, assignment_call _ hf' hp']
      exact keeps_callStatement target.position f hus

theorem statement_eq (ts : List Token) :
    statement ts = (do
      let a ← expect .identifier .expectedName ts
      if nextIs .equals a.2 then assignment a.1 a.2.tail
      else callStatement a.1.position a.1 a.2) := by
  unfold statement
  congr 1
  funext ⟨first, rest⟩
  cases rest with
  | nil => rfl
  | cons t after =>
    change (if t.kind = .equals then _ else _) = if decide (t.kind = .equals) = true then _ else _
    simp only [decide_eq_true_eq]
    rfl

theorem keeps_statement (h : x.Tokens ts ts') :
    x.Keeps (x.Tree (Statement.moved x.place)) (statement ts) (statement ts') := by
  rw [statement_eq, statement_eq]
  refine (keeps_expect (by decide) .expectedName h).bind (fun a a' _ _ ha => ?_) fun a _ => ?_
  · rw [ha.1.nextIs .equals (by decide), ha.2]
    split
    · rename_i hequals
      obtain ⟨q, rest, hq, -, hrest⟩ | ⟨q, us, us', hq, hq', -, hus⟩ := ha.1.cases hequals
      · rw [hq]
        exact keeps_of_suffix (left_assignment a.1 rest) hrest
      · rw [hq, hq']
        exact keeps_assignment a.1 hus
    · exact keeps_callStatement a.1.position a.1 ha.1
  · split
    · exact (left_assignment a.1 a.2.tail).trans (List.tail_suffix a.2)
    · exact left_callStatement _ a.1 a.2

/-! ### Scripts -/

theorem rest_length_lt {ts : List Token} {p : Parsed Statement} (h : statement ts = .ok p) :
    p.rest.length < ts.length := by
  obtain ⟨us, hts, hs⟩ := (answers_statement ts).of_ok h
  have hpos : 0 < us.length := hs.length_pos
  rw [hts, List.length_append]
  omega

theorem statements_of_separates {t : Token} (ht : t.kind.separates = true) (fuel : Nat)
    (ts : List Token) : statements (fuel + 1) (t :: ts) = statements fuel ts := by
  rw [statements, if_pos ht]

theorem statements_of_statement {t : Token} (ht : ¬ t.kind.separates = true) {ts : List Token}
    {p : Parsed Statement} (h : statement (t :: ts) = .ok p) (fuel : Nat) :
    statements (fuel + 1) (t :: ts) = (statements fuel p.rest).map (p.value :: ·) := by
  rw [statements, if_neg ht, h]
  rfl

theorem statements_of_stuck {t : Token} (ht : ¬ t.kind.separates = true) {ts : List Token}
    {stuck : Stuck} (h : statement (t :: ts) = .error stuck) (fuel : Nat) :
    statements (fuel + 1) (t :: ts) = .error stuck := by
  rw [statements, if_neg ht, h]
  rfl

/-- The answer does not depend on the bound. -/
theorem statements_fuel {ts : List Token} {fuel fuel' : Nat} (hfuel : ts.length ≤ fuel)
    (hfuel' : ts.length ≤ fuel') : statements fuel ts = statements fuel' ts := by
  induction fuel generalizing ts fuel' with
  | zero =>
    obtain rfl := List.length_eq_zero_iff.1 (Nat.le_zero.1 hfuel)
    cases fuel' <;> rfl
  | succ fuel ih =>
    cases ts with
    | nil => cases fuel' <;> rfl
    | cons t ts =>
      obtain ⟨fuel', rfl⟩ : ∃ n, fuel' = n + 1 := Nat.exists_eq_add_one.2 (Nat.zero_lt_of_lt hfuel')
      by_cases ht : t.kind.separates = true
      · rw [statements_of_separates ht, statements_of_separates ht]
        exact ih (Nat.le_of_succ_le_succ hfuel) (Nat.le_of_succ_le_succ hfuel')
      · cases hs : statement (t :: ts) with
        | error stuck => rw [statements_of_stuck ht hs, statements_of_stuck ht hs]
        | ok p =>
          have hlt := rest_length_lt hs
          rw [statements_of_statement ht hs, statements_of_statement ht hs,
            ih (Nat.le_of_lt_succ (hlt.trans_le hfuel)) (Nat.le_of_lt_succ (hlt.trans_le hfuel'))]

/-- A complaint that leaves the exchanged tokens alone is about none but the first of them. -/
theorem Exchange.Tokens.head {t : Token} (h : x.Tokens (t :: ts) ts')
    {us rest : List Token} (hrest : rest = us ++ x.before) (hsuffix : rest <:+ t :: ts)
    (hhead : us = [] → x.SameHead) :
    ∃ us', ts' = t.moved x.place :: us' ∧ (rest <:+ ts → x.Tokens ts us') := by
  obtain ⟨vs, hvs, rfl⟩ := h
  cases vs with
  | cons v vs =>
    obtain ⟨rfl, rfl⟩ := List.cons.inj hvs
    exact ⟨_, rfl, fun _ => ⟨vs, rfl, rfl⟩⟩
  | nil =>
    rw [List.nil_append] at hvs
    have hle := hsuffix.length_le
    rw [hvs, hrest, List.length_append] at hle
    obtain rfl : us = [] := List.length_eq_zero_iff.1 (by omega)
    have hsame := hhead rfl
    rw [SameHead, ← hvs] at hsame
    obtain ⟨us', hafter⟩ := List.head?_eq_some_iff.1 hsame
    refine ⟨us', hafter, fun hsuffix => ?_⟩
    have hle := hsuffix.length_le
    rw [hrest, List.nil_append, ← hvs] at hle
    exact absurd hle (Nat.not_succ_le_self _)

/-- A complaint about a token in front of the exchanged ones, or about the first of them if it is
kept, is made again. -/
theorem statements_of_error (h : x.Tokens ts ts') {fuel fuel' : Nat} (hfuel : ts.length ≤ fuel)
    (hfuel' : ts'.length ≤ fuel') {stuck : Stuck} (hstuck : statements fuel ts = .error stuck)
    {us : List Token} (hus : stuck.rest = us ++ x.before) (hhead : us = [] → x.SameHead) :
    statements fuel' ts' =
      .error ⟨stuck.complaint, us.map (Token.moved x.place) ++ x.after⟩ := by
  induction fuel generalizing ts ts' fuel' with
  | zero => cases hstuck
  | succ fuel ih =>
    cases ts with
    | nil => cases hstuck
    | cons t ts =>
      have hsuffix := (answers_statements hfuel).of_error hstuck
      obtain ⟨us', rfl, htokens⟩ := h.head hus hsuffix hhead
      obtain ⟨fuel', rfl⟩ : ∃ n, fuel' = n + 1 := Nat.exists_eq_add_one.2 (Nat.zero_lt_of_lt hfuel')
      by_cases ht : t.kind.separates = true
      · rw [statements_of_separates ht] at hstuck
        rw [statements_of_separates (show (t.moved x.place).kind.separates = true from ht)]
        have hlength := Nat.le_of_succ_le_succ hfuel
        have hsuffix := (answers_statements hlength).of_error hstuck
        exact ih (htokens hsuffix) hlength (Nat.le_of_succ_le_succ hfuel') hstuck
      · have ht' : ¬ (t.moved x.place).kind.separates = true := ht
        have hkeeps := keeps_statement h
        cases hs : statement (t :: ts) with
        | error stuck' =>
          rw [statements_of_stuck ht hs] at hstuck
          obtain rfl := Except.error.inj hstuck
          rw [hs] at hkeeps
          exact statements_of_stuck ht' (hkeeps us hus hhead) fuel'
        | ok p =>
          have hrest : p.rest.length ≤ fuel :=
            Nat.le_of_lt_succ ((rest_length_lt hs).trans_le hfuel)
          rw [statements_of_statement ht hs] at hstuck
          have hmore : statements fuel p.rest = .error stuck := by
            cases hmore : statements fuel p.rest with
            | error stuck' =>
              rw [hmore] at hstuck
              exact congrArg _ (Except.error.inj hstuck)
            | ok body =>
              rw [hmore] at hstuck
              cases hstuck
          have hsuffix := (answers_statements hrest).of_error hmore
          rw [hs] at hkeeps
          obtain ⟨p', hp', htree⟩ := hkeeps (.trans ⟨us, hus.symm⟩ hsuffix)
          have hrest' : p'.rest.length ≤ fuel' :=
            Nat.le_of_lt_succ ((rest_length_lt hp').trans_le hfuel')
          rw [statements_of_statement ht' hp', ih htree.1 hrest hrest' hmore]
          rfl

/-- Behind a script the parser goes on with what is put there. -/
theorem statements_of_ok (hbefore : x.before = []) {ts : List Token} {fuel fuel' : Nat}
    (hfuel : ts.length ≤ fuel) {body : List Statement} (hbody : statements fuel ts = .ok body)
    (hfuel' : (ts.map (Token.moved x.place) ++ x.after).length ≤ fuel') :
    statements fuel' (ts.map (Token.moved x.place) ++ x.after) =
      (statements x.after.length x.after).map (body.map (Statement.moved x.place) ++ ·) := by
  have htokens (us us' : List Token) :
      x.Tokens us us' ↔ us' = us.map (Token.moved x.place) ++ x.after := by
    simp [Tokens, hbefore]
  induction fuel generalizing ts fuel' body with
  | zero =>
    obtain rfl := List.length_eq_zero_iff.1 (Nat.le_zero.1 hfuel)
    obtain rfl : [] = body := Except.ok.inj hbody
    rw [List.map_nil, List.nil_append] at hfuel' ⊢
    rw [statements_fuel hfuel' (Nat.le_refl _)]
    cases statements x.after.length x.after <;> rfl
  | succ fuel ih =>
    cases ts with
    | nil => exact ih (Nat.zero_le _) (by cases fuel <;> exact hbody) hfuel'
    | cons t ts =>
      obtain ⟨fuel', rfl⟩ : ∃ n, fuel' = n + 1 := Nat.exists_eq_add_one.2 (Nat.zero_lt_of_lt hfuel')
      by_cases ht : t.kind.separates = true
      · rw [statements_of_separates ht] at hbody
        rw [List.map_cons, List.cons_append, statements_of_separates (by exact ht)]
        exact ih (Nat.le_of_succ_le_succ hfuel) hbody (Nat.le_of_succ_le_succ hfuel')
      · have hkeeps := keeps_statement ((htokens (t :: ts) _).2 rfl)
        cases hs : statement (t :: ts) with
        | error stuck =>
          rw [statements_of_stuck ht hs] at hbody
          cases hbody
        | ok p =>
          rw [statements_of_statement ht hs] at hbody
          rw [hs] at hkeeps
          obtain ⟨p', hp', htree⟩ := hkeeps (by rw [hbefore]; exact List.nil_suffix)
          have hrest := Nat.le_of_lt_succ ((rest_length_lt hs).trans_le hfuel)
          have hrest' := Nat.le_of_lt_succ ((rest_length_lt hp').trans_le hfuel')
          cases hmore : statements fuel p.rest with
          | error stuck =>
            rw [hmore] at hbody
            cases hbody
          | ok more =>
            rw [hmore] at hbody
            obtain rfl : p.value :: more = body := Except.ok.inj hbody
            rw [(htokens _ _).1 htree.1] at hrest'
            have hgoal := ih hrest hmore hrest'
            rw [← (htokens _ _).1 htree.1] at hgoal
            rw [List.map_cons, List.cons_append] at hp' ⊢
            rw [statements_of_statement (by exact ht) hp', hgoal, htree.2.1]
            cases statements x.after.length x.after <;> rfl

end Statements

theorem recover_cons (t : Token) (ts : List Token) :
    recover (t :: ts) = if t.kind.separates then ts else recover ts := by
  rw [recover, List.dropWhile_cons]
  cases t.kind.separates <;> rfl

/-! ### The three uses -/

theorem recover_map (place : Position → Position) (ts : List Token) :
    recover (ts.map (Token.moved place)) = (recover ts).map (Token.moved place) := by
  rw [recover, recover, List.dropWhile_map, List.map_drop]
  rfl

theorem headPosition_map (place : Position → Position) (stop : Position) (ts : List Token) :
    headPosition (place stop) (ts.map (Token.moved place)) = place (headPosition stop ts) := by
  cases ts <;> rfl

/-- Where the tokens stand does not matter. -/
theorem statements_moved (place : Position → Position) (ts : List Token) :
    statements ts.length (ts.map (Token.moved place)) =
      ((statements ts.length ts).map (List.map (Statement.moved place))).mapError
        fun stuck => ⟨stuck.complaint, stuck.rest.map (Token.moved place)⟩ := by
  have hall : (ts.map (Token.moved place)).length ≤ ts.length := by rw [List.length_map]
  -- Nothing is exchanged behind the tokens.
  let x : Exchange := ⟨place, [], [], fun _ _ => rfl⟩
  cases hbody : statements ts.length ts with
  | ok body =>
    have hlength : (ts.map (Token.moved x.place) ++ x.after).length ≤ ts.length := by simp [x]
    have hmoved := statements_of_ok rfl (Nat.le_refl _) hbody hlength
    simpa [x, Except.map, Except.mapError, statements] using hmoved
  | error stuck =>
    have hrest : stuck.rest = stuck.rest ++ x.before := (List.append_nil _).symm
    have hmoved := statements_of_error ⟨ts, by simp [x], by simp [x]⟩ (Nat.le_refl _) hall hbody
      hrest (fun _ => rfl)
    simpa [x, Except.map, Except.mapError] using hmoved

theorem script_moved (place : Position → Position) (ts : List Token) (stop : Position) :
    script (ts.map (Token.moved place)) (place stop) =
      ((script ts stop).map (Script.moved place)).mapError (SyntaxError.moved place) := by
  rw [script, script, List.length_map, statements_moved]
  cases statements ts.length ts with
  | ok body =>
    simp only [Except.map, Except.mapError, headPosition_map, List.getLast?_map]
    cases ts.getLast? <;> rfl
  | error stuck =>
    simp [recover_map, headPosition_map, Except.map, Except.mapError, SyntaxError.moved]

/-- A script stays one, with a line end and other tokens behind it. -/
theorem statements_append {ts : List Token} {body : List Statement}
    (h : statements ts.length ts = .ok body) {t : Token} (ht : t.kind = .newline)
    (us : List Token) :
    statements (ts ++ t :: us).length (ts ++ t :: us) =
      (statements us.length us).map (body ++ ·) := by
  let x : Exchange := ⟨id, [], t :: us, fun kind hkind => decide_eq_false (ht ▸ hkind.symm)⟩
  have hlength : (ts.map (Token.moved x.place) ++ x.after).length ≤ (ts ++ t :: us).length := by
    simp [x]
  have hjoined := statements_of_ok rfl (Nat.le_refl _) h hlength
  have hline : t.kind.separates = true := by rw [ht]; rfl
  have hmoved : ts.map (Token.moved id) = ts := List.map_id ts
  have hbody : body.map (Statement.moved id) = body := List.map_id'' Statement.moved_id body
  change statements _ (ts.map (Token.moved id) ++ t :: us) =
    (statements (us.length + 1) (t :: us)).map (body.map (Statement.moved id) ++ ·) at hjoined
  rwa [hmoved, hbody, statements_of_separates hline] at hjoined

/-- What follows the offending token does not matter. -/
theorem statements_same_error {us vs : List Token} {t : Token} {complaint : Complaint}
    (h : statements (us ++ t :: vs).length (us ++ t :: vs) = .error ⟨complaint, t :: vs⟩)
    (ws : List Token) :
    statements (us ++ t :: ws).length (us ++ t :: ws) = .error ⟨complaint, t :: ws⟩ := by
  let x : Exchange := ⟨id, t :: vs, t :: ws, fun _ _ => rfl⟩
  have hmoved : us.map (Token.moved id) = us := List.map_id us
  have hrest : t :: vs = [] ++ x.before := rfl
  exact statements_of_error (x := x) ⟨us, rfl, by rw [hmoved]⟩ (Nat.le_refl _) (Nat.le_refl _) h
    hrest (fun _ => rfl)

end Parsing

end GeoLint
