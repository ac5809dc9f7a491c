import GeoLint.Proofs.Syntax.Machine

/-!
# The machine does what the parser does

With the tokens `ts` left, the machine stands at `Feed.before ts`.  From there each of its functions
gives the `Feed.outcome` of the function of `Parsing` on `ts`: the same piece of a tree, with the
index behind it, or the same complaint, with the index at the offending token.  `run_bind` puts such
steps together.

`Parser.script_before` is the result for the tokens of a script.
-/

namespace GeoLint

open Token (Kind)
open Parsing Grammar

/-- The tokens of a script: none but the one behind them is final, and their numbers have values. -/
structure Feed where
  /-- The tokens in front of the final one. -/
  tokens : List Token
  /-- Where the final one stands. -/
  stop : Position
  /-- They are not final. -/
  proper : ∀ t ∈ tokens, t.kind ≠ .ending
  /-- Numbers have values. -/
  numerals : Numerals tokens

/-- The tokens that are left when the parser gives up: those behind the next separator, except that
from too deep inside it does not come back. -/
def Parsing.Stuck.settled (stuck : Stuck) : List Token :=
  if stuck.complaint = .tooDeep then stuck.rest else recover stuck.rest

namespace Feed

/-- The parser with the tokens `ts` left. -/
def before (f : Feed) (ts : List Token) : Parser :=
  ⟨f.tokens ++ [.final f.stop], f.tokens.length - ts.length⟩

/-- The reason for which the machine stops where the parser is stuck. -/
def halt (f : Feed) (stuck : Stuck) : Parser.Halt :=
  if stuck.complaint = .tooDeep then .tooDeep
  else .refused stuck.complaint (headPosition f.stop stuck.rest)

/-- What the machine does where the parser answers `r`. -/
def outcome {α β : Type} [Leaves α] (f : Feed) (value : α → β) :
    Except Stuck α → EStateM.Result Parser.Halt Parser β
  | .ok a => .ok (value a) (f.before (Leaves.rest a))
  | .error stuck => .error (f.halt stuck) (f.before stuck.rest)

/-- The same where the parser is at the end of the script or gives up. -/
def ended (f : Feed) :
    Except Stuck (List Statement) → EStateM.Result Parser.Halt Parser (List Statement)
  | .ok body => .ok body (f.before [])
  | .error stuck => .error (f.halt stuck) (f.before stuck.settled)

end Feed

namespace Parser

variable {f : Feed} {ts : List Token} {t : Token}

/-! ### Steps in sequence -/

theorem bind_of_ok {α β : Type} {m : Run α} {k : α → Run β} {s s' : Parser} {a : α}
    (h : m s = .ok a s') : (m >>= k) s = k a s' := by
  change EStateM.bind m k s = _
  rw [EStateM.bind, h]

theorem run_bind {α β γ δ : Type} [Leaves α] [Leaves γ] {m : Run β} {k : β → Run δ} {s : Parser}
    {r : Except Stuck α} {k' : α → Except Stuck γ} {value : α → β} {value' : γ → δ}
    (h : m s = f.outcome value r)
    (hk : ∀ a, r = .ok a → k (value a) (f.before (Leaves.rest a)) = f.outcome value' (k' a)) :
    (m >>= k) s = f.outcome value' (r >>= k') := by
  change EStateM.bind m k s = _
  rw [EStateM.bind, h]
  cases r with
  | ok a => exact hk a rfl
  | error stuck => rfl

/-! ### The index -/

theorem fetch_cons (h : t :: ts <:+ f.tokens) (s : List Token) :
    fetch (f.tokens.length - (t :: ts).length) (f.before s) = .ok t (f.before s) := by
  obtain ⟨us, hus⟩ := h
  have hindex : f.tokens.length - (t :: ts).length = us.length := by
    rw [← hus, List.length_append, Nat.add_sub_cancel]
  rw [hindex, fetch, Feed.before, ← hus]
  simp

theorem index_before (ts : List Token) :
    index (f.before ts) = .ok (f.tokens.length - ts.length) (f.before ts) :=
  rfl

theorem size_before (ts : List Token) :
    size (f.before ts) = .ok (f.tokens.length + 1) (f.before ts) := by
  rw [size, Feed.before, List.length_append]
  rfl

theorem peek_cons (h : t :: ts <:+ f.tokens) :
    peek (f.before (t :: ts)) = .ok t (f.before (t :: ts)) :=
  fetch_cons h _

theorem peek_nil : peek (f.before []) = .ok (.final f.stop) (f.before []) := by
  change fetch (f.tokens.length) (f.before []) = _
  rw [fetch, Feed.before]
  simp

theorem previous_before (h : t :: ts <:+ f.tokens) :
    previous (f.before ts) = .ok t (f.before ts) := by
  have hle := h.length_le
  have hindex : f.tokens.length - ts.length = (f.tokens.length - (t :: ts).length) + 1 := by
    rw [List.length_cons] at hle ⊢
    omega
  have hstart : index (f.before ts) =
      .ok ((f.tokens.length - (t :: ts).length) + 1) (f.before ts) :=
    congrArg (EStateM.Result.ok · (f.before ts)) hindex
  exact (bind_of_ok hstart).trans (fetch_cons h ts)

theorem atEnd_before (h : ts <:+ f.tokens) :
    atEnd (f.before ts) = .ok ts.isEmpty (f.before ts) := by
  cases ts with
  | nil => exact bind_of_ok peek_nil
  | cons t ts =>
    have hproper : t.kind ≠ .ending := f.proper t (h.subset List.mem_cons_self)
    refine (bind_of_ok (peek_cons h)).trans ?_
    rw [decide_eq_false hproper]
    rfl

theorem check_before (h : ts <:+ f.tokens) (kind : Kind) :
    check kind (f.before ts) = .ok (nextIs kind ts) (f.before ts) := by
  refine (bind_of_ok (atEnd_before h)).trans ?_
  cases ts with
  | nil => rfl
  | cons t ts => exact bind_of_ok (peek_cons h)

theorem moveTo_before (ts us : List Token) :
    moveTo (f.tokens.length - ts.length) (f.before us) = .ok () (f.before ts) := by
  have hlt : f.tokens.length - ts.length < (f.before us).tokens.length := by
    rw [Feed.before, List.length_append, List.length_singleton]
    omega
  rw [moveTo, if_pos hlt]
  rfl

theorem advance_cons (h : t :: ts <:+ f.tokens) :
    advance (f.before (t :: ts)) = .ok t (f.before ts) := by
  have hle := h.length_le
  have hindex : f.tokens.length - (t :: ts).length + 1 = f.tokens.length - ts.length := by
    rw [List.length_cons] at hle ⊢
    omega
  have hmove := moveTo_before (f := f) ts (t :: ts)
  rw [← hindex] at hmove
  refine (bind_of_ok (atEnd_before h)).trans ?_
  exact (bind_of_ok hmove).trans (previous_before h)

theorem advance_nil (h : f.tokens ≠ []) :
    ∃ t, advance (f.before []) = .ok t (f.before []) := by
  obtain ⟨us, t, htokens⟩ := List.eq_nil_or_concat f.tokens |>.resolve_left h
  have hsuffix : [t] <:+ f.tokens := ⟨us, by rw [htokens, List.concat_eq_append]⟩
  exact ⟨t, (bind_of_ok (atEnd_before List.nil_suffix)).trans (previous_before hsuffix)⟩

theorem accept_before (h : ts <:+ f.tokens) (kind : Kind) :
    accept [kind] (f.before ts) =
      if nextIs kind ts then .ok true (f.before ts.tail) else .ok false (f.before ts) := by
  refine (bind_of_ok (check_before h kind)).trans ?_
  cases hnext : nextIs kind ts with
  | false => rfl
  | true =>
    obtain ⟨t, us, rfl, -⟩ := exists_cons_of_nextIs hnext
    exact bind_of_ok (advance_cons h)

theorem consume_before (h : ts <:+ f.tokens) (kind : Kind) {complaint : Complaint}
    (hdeep : complaint ≠ .tooDeep) :
    consume kind complaint (f.before ts) = f.outcome Prod.fst (expect kind complaint ts) := by
  refine (bind_of_ok (check_before h kind)).trans ?_
  cases hnext : nextIs kind ts with
  | false =>
    rw [expect_of_not hnext, Feed.outcome, Feed.halt, if_neg hdeep]
    cases ts with
    | nil => exact bind_of_ok peek_nil
    | cons t ts => exact bind_of_ok (peek_cons h)
  | true =>
    obtain ⟨t, us, rfl, ht⟩ := exists_cons_of_nextIs hnext
    rw [expect_of_kind ht]
    exact advance_cons h

/-- The token that was taken stands in front of the index. -/
theorem previous_of_expect (h : ts <:+ f.tokens) {kind : Kind} {complaint : Complaint}
    {a : Token × List Token} (ha : expect kind complaint ts = .ok a) :
    a.2 <:+ f.tokens ∧ previous (f.before a.2) = .ok a.1 (f.before a.2) := by
  obtain ⟨hts, -⟩ := (answers_expect kind complaint ts).of_ok ha
  rw [hts] at h
  exact ⟨(List.suffix_cons a.1 a.2).trans h, previous_before h⟩

/-! ### Expressions -/

/-- The machine finds the expressions that the parser finds. -/
def Simulates (f : Feed) (item : Run Expr) (item' : List Token → Except Stuck (Parsed Expr)) :
    Prop :=
  ∀ ts, ts <:+ f.tokens → item (f.before ts) = f.outcome Parsed.value (item' ts)

section Expressions

variable {item : Run Expr} {item' : List Token → Except Stuck (Parsed Expr)}

variable (hsound : Sound item') (hitem : Simulates f item item')

include hsound hitem

theorem more_before (trailing : Bool) {fuel fuel' : Nat} (h : ts <:+ f.tokens)
    (hfuel : ts.length < fuel) (hfuel' : ts.length ≤ fuel') :
    more item trailing fuel (f.before ts) =
      f.outcome Prod.fst (Parsing.more item' trailing fuel' ts) := by
  induction fuel generalizing ts fuel' with
  | zero => exact absurd hfuel (Nat.not_lt_zero _)
  | succ fuel ih =>
    have haccept := accept_before h .comma
    cases hcomma : nextIs .comma ts with
    | false =>
      rw [hcomma] at haccept
      rw [stopsAt_of_ne_comma trailing hcomma item' fuel' hfuel']
      exact bind_of_ok haccept
    | true =>
      rw [hcomma] at haccept
      obtain ⟨k, us, rfl, hk⟩ := exists_cons_of_nextIs hcomma
      obtain ⟨fuel', rfl⟩ : ∃ n, fuel' = n + 1 := Nat.exists_eq_add_one.2 (Nat.zero_lt_of_lt hfuel')
      have hus : us <:+ f.tokens := (List.suffix_cons k us).trans h
      refine (bind_of_ok haccept).trans ?_
      have hended : endsAfterComma trailing (f.before us) =
          .ok (trailing && nextIs .closeParen us) (f.before us) := by
        cases trailing with
        | false => rfl
        | true => exact check_before hus .closeParen
      refine (bind_of_ok hended).trans ?_
      rw [Parsing.more, if_pos hk]
      split
      · rfl
      · refine run_bind (hitem us hus) fun p hp => ?_
        have hrest := hsound.rest_suffix hp
        have hle := hrest.length_le
        refine run_bind (ih (hrest.trans hus) (hle.trans_lt (Nat.lt_of_succ_lt_succ hfuel))
          (hle.trans (Nat.le_of_succ_le_succ hfuel'))) fun a _ => rfl

theorem items_before (close : Kind) (h : ts <:+ f.tokens) :
    items item close (f.before ts) = f.outcome Prod.fst (Parsing.items item' close ts) := by
  refine (bind_of_ok (check_before h close)).trans ?_
  rw [Parsing.items]
  split
  · rfl
  · refine run_bind (hitem ts h) fun p hp => ?_
    have hrest := (hsound.rest_suffix hp).trans h
    have hfuel := Nat.lt_succ_of_le hrest.length_le
    refine (bind_of_ok (size_before p.rest)).trans ?_
    exact run_bind (more_before hsound hitem false hrest hfuel (Nat.le_refl _)) fun a _ => rfl

theorem enclosed_before (close : Kind) {complaint : Complaint} (hdeep : complaint ≠ .tooDeep)
    (h : ts <:+ f.tokens) :
    enclosed item close complaint (f.before ts) =
      f.outcome (fun p => (p.value, p.last)) (Parsing.enclosed item' close complaint ts) := by
  rw [enclosed_eq]
  refine run_bind (items_before hsound hitem close h) fun a ha => ?_
  have hrest : a.2 <:+ f.tokens := (rest_suffix_of_ok (left_items hsound close ts) ha).trans h
  refine run_bind (consume_before hrest close hdeep) fun b hb => ?_
  exact bind_of_ok (previous_of_expect hrest hb).2

theorem list_before (h : t :: ts <:+ f.tokens) (ht : t.kind = .openBrace) :
    list item (f.before (t :: ts)) =
      f.outcome Parsed.value (Parsing.starting item' t ts) := by
  have hts := (List.suffix_cons t ts).trans h
  simp only [Parsing.starting, ht]
  refine (bind_of_ok (advance_cons h)).trans ?_
  exact run_bind (enclosed_before hsound hitem .closeBrace (by decide) hts) fun es _ => rfl

theorem group_before (h : t :: ts <:+ f.tokens) (ht : t.kind = .openParen) :
    group item (f.before (t :: ts)) =
      f.outcome Parsed.value (Parsing.starting item' t ts) := by
  have hts := (List.suffix_cons t ts).trans h
  have haccept := accept_before hts .closeParen
  simp only [Parsing.starting, ht]
  refine (bind_of_ok (advance_cons h)).trans ?_
  cases hclose : nextIs .closeParen ts with
  | true =>
    obtain ⟨c, us, rfl, hc⟩ := exists_cons_of_nextIs hclose
    rw [hclose] at haccept
    rw [Parsing.group, if_pos hc]
    refine (bind_of_ok haccept).trans ?_
    exact bind_of_ok (previous_before hts)
  | false =>
    rw [hclose] at haccept
    rw [group_of_not hsound t.position hclose]
    refine (bind_of_ok haccept).trans (run_bind (hitem ts hts) fun p hp => ?_)
    have hrest := (hsound.rest_suffix hp).trans hts
    have hfuel := Nat.lt_succ_of_le hrest.length_le
    refine (bind_of_ok (check_before hrest .comma)).trans ?_
    split
    · refine (bind_of_ok (size_before p.rest)).trans ?_
      refine run_bind (more_before hsound hitem true hrest hfuel (Nat.le_refl _)) fun a ha => ?_
      have hrest' : a.2 <:+ f.tokens :=
        (rest_suffix_of_ok (left_more hsound true p.rest.length p.rest) ha).trans hrest
      refine run_bind (consume_before hrest' .closeParen (by decide)) fun b hb => ?_
      exact bind_of_ok (previous_of_expect hrest' hb).2
    · exact run_bind (consume_before hrest .closeParen (by decide)) fun b _ => rfl

theorem nameOrCall_before (h : t :: ts <:+ f.tokens) (ht : t.kind = .identifier) :
    nameOrCall item (f.before (t :: ts)) =
      f.outcome Parsed.value (Parsing.starting item' t ts) := by
  have hts := (List.suffix_cons t ts).trans h
  simp only [Parsing.starting, ht]
  have hname := consume_before h .identifier (show Complaint.expectedName ≠ .tooDeep by decide)
  rw [expect_of_kind ht] at hname
  refine (bind_of_ok hname).trans ((bind_of_ok (check_before hts .openParen)).trans ?_)
  cases hparen : nextIs .openParen ts with
  | false =>
    rw [nameOrCall_eq_ok hparen]
    rfl
  | true =>
    obtain ⟨p, us, rfl, hp⟩ := exists_cons_of_nextIs hparen
    have hus := (List.suffix_cons p us).trans hts
    rw [Parsing.nameOrCall, if_pos hp]
    refine (bind_of_ok (advance_cons hts)).trans ?_
    exact run_bind (enclosed_before hsound hitem .closeParen (by decide) hus) fun as _ => rfl

theorem starting_before (h : t :: ts <:+ f.tokens) :
    starting item (f.before (t :: ts)) =
      f.outcome Parsed.value (Parsing.starting item' t ts) := by
  refine (bind_of_ok (peek_cons h)).trans ?_
  cases hkind : t.kind with
  | number =>
    obtain ⟨x, hx⟩ := f.numerals t (h.subset List.mem_cons_self) hkind
    have hnumber : number t.text (f.before ts) = .ok x (f.before ts) := by rw [number, hx]; rfl
    simp only [Parsing.starting, hkind, hx]
    exact (bind_of_ok (advance_cons h)).trans (bind_of_ok hnumber)
  | text | truth =>
    simp only [Parsing.starting, hkind]
    exact bind_of_ok (advance_cons h)
  | openBrace => exact list_before hsound hitem h hkind
  | openParen => exact group_before hsound hitem h hkind
  | identifier => exact nameOrCall_before hsound hitem h hkind
  | closeParen | closeBrace | comma | equals | semicolon | newline | ending | unknown =>
    simp only [Parsing.starting, hkind]
    rfl

end Expressions

theorem expression_before (f : Feed) (depth : Nat) :
    Simulates f (expression depth) (Parsing.expression depth) := by
  induction depth with
  | zero => exact fun ts _ => rfl
  | succ depth ih =>
    intro ts h
    cases ts with
    | nil => exact bind_of_ok peek_nil
    | cons t ts => exact starting_before (sound_expression depth) ih h

/-! ### Statements -/

theorem callStatement_before (h : ts <:+ f.tokens) (start : Position) (command : Token) :
    callStatement start command (f.before ts) =
      f.outcome Parsed.value (Parsing.callStatement start command ts) := by
  refine run_bind (consume_before h .openParen (by decide)) fun a ha => ?_
  have hrest := (previous_of_expect h ha).1
  exact run_bind (enclosed_before (sound_expression _) (expression_before f _) .closeParen
    (by decide) hrest) fun as _ => rfl

/-- The look ahead leaves the index where it was. -/
theorem callFollows_before (h : ts <:+ f.tokens) : callFollows (f.before ts) =
    .ok (nextIs .identifier ts && nextIs .openParen ts.tail) (f.before ts) := by
  refine (bind_of_ok (check_before h .identifier)).trans ?_
  cases hname : nextIs .identifier ts with
  | false => rfl
  | true =>
    obtain ⟨t, us, rfl, -⟩ := exists_cons_of_nextIs hname
    have hus := (List.suffix_cons t us).trans h
    have hsaved := moveTo_before (f := f) (t :: us) us
    refine (bind_of_ok (index_before (t :: us))).trans ?_
    refine (bind_of_ok (advance_cons h)).trans ?_
    refine (bind_of_ok (check_before hus .openParen)).trans ?_
    exact bind_of_ok hsaved

/-- The token in front of the index is the last one of the expression. -/
theorem previous_of_expression (h : ts <:+ f.tokens) {depth : Nat} {p : Parsed Expr}
    (hp : Parsing.expression depth ts = .ok p) :
    ∃ last, previous (f.before p.rest) = .ok last (f.before p.rest) ∧ last.position = p.last := by
  obtain ⟨us, hts, -, last, hlast, hposition⟩ := (sound_expression depth ts).of_ok hp
  obtain ⟨vs, rfl⟩ := List.getLast?_eq_some_iff.1 hlast
  rw [List.append_assoc] at hts
  exact ⟨last, previous_before (.trans ⟨vs, hts.symm⟩ h), hposition⟩

theorem assignment_before (h : ts <:+ f.tokens) (target : Token) :
    assignment target.position target (f.before ts) =
      f.outcome Parsed.value (Parsing.assignment target ts) := by
  refine (bind_of_ok (callFollows_before h)).trans ?_
  by_cases hcall : StartsCall ts
  · rw [if_pos (by simpa using (startsCall_iff ts).1 hcall)]
    obtain ⟨c, p, rest, rfl, hc, hp⟩ := hcall
    have hname := consume_before h .identifier (show Complaint.expectedName ≠ .tooDeep by decide)
    rw [expect_of_kind hc] at hname
    rw [assignment_call target hc hp]
    refine (bind_of_ok hname).trans ?_
    exact callStatement_before ((List.suffix_cons c _).trans h) target.position c
  · rw [if_neg (by simpa using fun hname hparen => hcall ((startsCall_iff ts).2 ⟨hname, hparen⟩)),
      assignment_plain target hcall]
    refine run_bind (expression_before f maxDepth ts h) fun e he => ?_
    obtain ⟨last, hlast, hposition⟩ := previous_of_expression h he
    refine (bind_of_ok hlast).trans ?_
    rw [hposition]
    rfl

theorem statement_before (h : t :: ts <:+ f.tokens) :
    statement (f.before (t :: ts)) = f.outcome Parsed.value (Parsing.statement (t :: ts)) := by
  rw [statement_eq]
  refine (bind_of_ok (peek_cons h)).trans ?_
  refine run_bind (consume_before h .identifier (by decide)) fun a ha => ?_
  obtain ⟨hcons, -⟩ := (answers_expect .identifier .expectedName (t :: ts)).of_ok ha
  obtain ⟨rfl, rfl⟩ := List.cons.inj hcons
  have hrest := (previous_of_expect h ha).1
  have haccept := accept_before hrest .equals
  cases hequals : nextIs .equals a.2 with
  | false =>
    rw [hequals] at haccept
    refine (bind_of_ok haccept).trans ?_
    exact callStatement_before hrest a.1.position a.1
  | true =>
    rw [hequals] at haccept
    refine (bind_of_ok haccept).trans ?_
    exact assignment_before ((List.tail_suffix a.2).trans hrest) a.1

/-! ### After a complaint -/

theorem bind_of_error {α β : Type} {m : Run α} {k : α → Run β} {s s' : Parser} {e : Halt}
    (h : m s = .error e s') : (m >>= k) s = .error e s' := by
  change EStateM.bind m k s = _
  rw [EStateM.bind, h]

theorem skip_before {fuel : Nat} (h : t :: ts <:+ f.tokens) (hfuel : ts.length < fuel) :
    skip fuel (f.before ts) = .ok () (f.before (recover (t :: ts))) := by
  induction ts generalizing t fuel with
  | nil =>
    obtain ⟨fuel, rfl⟩ := Nat.exists_eq_add_one.2 hfuel
    refine (bind_of_ok (atEnd_before List.nil_suffix)).trans ?_
    rw [recover_cons, show recover [] = [] from rfl, ite_self]
    rfl
  | cons u us ih =>
    obtain ⟨fuel, rfl⟩ : ∃ n, fuel = n + 1 := Nat.exists_eq_add_one.2 (Nat.zero_lt_of_lt hfuel)
    have hus := (List.suffix_cons t _).trans h
    refine (bind_of_ok (atEnd_before hus)).trans ((bind_of_ok (previous_before h)).trans ?_)
    rw [recover_cons]
    split
    · rfl
    · refine (bind_of_ok (advance_cons hus)).trans ?_
      exact ih hus (Nat.lt_of_succ_lt_succ hfuel)

theorem synchronize_before (h : ts <:+ f.tokens) (hne : f.tokens ≠ []) :
    synchronize (f.before ts) = .ok () (f.before (recover ts)) := by
  cases ts with
  | nil =>
    obtain ⟨t, ht⟩ := advance_nil hne
    refine (bind_of_ok ht).trans ((bind_of_ok (size_before [])).trans ?_)
    exact bind_of_ok (atEnd_before List.nil_suffix)
  | cons t ts =>
    have hle := ((List.suffix_cons t ts).trans h).length_le
    refine (bind_of_ok (advance_cons h)).trans ((bind_of_ok (size_before ts)).trans ?_)
    exact skip_before h (Nat.lt_succ_of_le hle)

theorem recovering_before (h : t :: ts <:+ f.tokens) :
    recovering statement (f.before (t :: ts)) =
      match Parsing.statement (t :: ts) with
      | .ok p => .ok p.value (f.before p.rest)
      | .error stuck => .error (f.halt stuck) (f.before stuck.settled) := by
  have hne : f.tokens ≠ [] := List.ne_nil_of_mem (h.subset List.mem_cons_self)
  rw [recovering, statement_before h]
  cases hs : Parsing.statement (t :: ts) with
  | ok p => rfl
  | error stuck =>
    have hrest : stuck.rest <:+ f.tokens := ((answers_statement (t :: ts)).of_error hs).trans h
    simp only [Feed.outcome, Feed.halt, Stuck.settled]
    split_ifs
    · rfl
    · exact bind_of_ok (synchronize_before hrest hne)

theorem accept_separator (h : t :: ts <:+ f.tokens) :
    accept [.newline, .semicolon] (f.before (t :: ts)) =
      if t.kind.separates then .ok true (f.before ts) else .ok false (f.before (t :: ts)) := by
  refine (bind_of_ok (check_before h .newline)).trans ?_
  by_cases hline : t.kind = .newline
  · rw [nextIs_of_kind hline, show t.kind.separates = true by rw [hline]; rfl]
    exact bind_of_ok (advance_cons h)
  · have hseparates : t.kind.separates = nextIs .semicolon (t :: ts) := by
      rw [Kind.separates, decide_eq_false hline, Bool.false_or]
      rfl
    rw [show nextIs .newline (t :: ts) = false from decide_eq_false hline, hseparates]
    exact accept_before h .semicolon

theorem round_before (h : t :: ts <:+ f.tokens) :
    round (f.before (t :: ts)) =
      if t.kind.separates then .ok [] (f.before ts)
      else match Parsing.statement (t :: ts) with
        | .ok p => .ok [p.value] (f.before p.rest)
        | .error stuck => .error (f.halt stuck) (f.before stuck.settled) := by
  have haccept := accept_separator h
  cases hseparates : t.kind.separates with
  | true =>
    rw [hseparates] at haccept
    exact bind_of_ok haccept
  | false =>
    rw [hseparates] at haccept
    refine (bind_of_ok haccept).trans ?_
    have hstatement := recovering_before h
    cases hs : Parsing.statement (t :: ts) with
    | ok p =>
      rw [hs] at hstatement
      exact bind_of_ok hstatement
    | error stuck =>
      rw [hs] at hstatement
      exact bind_of_error hstatement

/-- A round that takes a token lets the loop go on. -/
theorem statements_of_round (h : t :: ts <:+ f.tokens) {us : List Token} {found : List Statement}
    (hus : us.length < (t :: ts).length)
    (hround : round (f.before (t :: ts)) = .ok found (f.before us)) (fuel : Nat) :
    statements (fuel + 1) (f.before (t :: ts)) =
      (do let more ← statements fuel; pure (found ++ more) : Run (List Statement))
        (f.before us) := by
  have hle := h.length_le
  have hmoves : f.tokens.length - (t :: ts).length < f.tokens.length - us.length := by omega
  refine (bind_of_ok (atEnd_before h)).trans ?_
  refine (bind_of_ok (index_before (t :: ts))).trans ?_
  refine (bind_of_ok hround).trans ?_
  refine (bind_of_ok (index_before us)).trans ?_
  exact congrFun (if_pos hmoves) _

theorem ended_bind {m : Run (List Statement)} {s : Parser} {r : Except Stuck (List Statement)}
    (h : m s = f.ended r) (found : List Statement) :
    (do let more ← m; pure (found ++ more) : Run (List Statement)) s =
      f.ended (r.map (found ++ ·)) := by
  cases r with
  | ok body => exact bind_of_ok h
  | error stuck => exact bind_of_error h

theorem statements_before {fuel fuel' : Nat} (h : ts <:+ f.tokens) (hfuel : ts.length < fuel)
    (hfuel' : ts.length ≤ fuel') :
    statements fuel (f.before ts) = f.ended (Parsing.statements fuel' ts) := by
  induction fuel generalizing ts fuel' with
  | zero => exact absurd hfuel (Nat.not_lt_zero _)
  | succ fuel ih =>
    cases ts with
    | nil =>
      refine (bind_of_ok (atEnd_before h)).trans ?_
      cases fuel' <;> rfl
    | cons t ts =>
      obtain ⟨fuel', rfl⟩ : ∃ n, fuel' = n + 1 := Nat.exists_eq_add_one.2 (Nat.zero_lt_of_lt hfuel')
      have hround := round_before h
      by_cases ht : t.kind.separates = true
      · rw [if_pos ht] at hround
        have hmore := ih ((List.suffix_cons t ts).trans h) (Nat.lt_of_succ_lt_succ hfuel)
          (Nat.le_of_succ_le_succ hfuel')
        rw [statements_of_round h (Nat.lt_succ_self _) hround, ended_bind hmore,
          statements_of_separates ht]
        cases Parsing.statements fuel' ts <;> rfl
      · rw [if_neg ht] at hround
        cases hs : Parsing.statement (t :: ts) with
        | error stuck =>
          rw [hs] at hround
          rw [statements_of_stuck ht hs]
          refine (bind_of_ok (atEnd_before h)).trans ?_
          refine (bind_of_ok (index_before (t :: ts))).trans ?_
          exact bind_of_error hround
        | ok p =>
          rw [hs] at hround
          have hlt := rest_length_lt hs
          obtain ⟨us, hts, -⟩ := (answers_statement (t :: ts)).of_ok hs
          have hrest : p.rest <:+ t :: ts := ⟨us, hts.symm⟩
          have hmore := ih (hrest.trans h) (Nat.lt_of_lt_of_le hlt (Nat.le_of_lt_succ hfuel))
            (Nat.le_of_lt_succ (hlt.trans_le hfuel'))
          rw [statements_of_round h hlt hround, ended_bind hmore, statements_of_statement ht hs]
          rfl

/-! ### Scripts -/

theorem peek_before (h : ts <:+ f.tokens) :
    ∃ t, peek (f.before ts) = .ok t (f.before ts) ∧ t.position = headPosition f.stop ts := by
  cases ts with
  | nil => exact ⟨_, peek_nil, rfl⟩
  | cons t ts => exact ⟨t, peek_cons h, rfl⟩

theorem lastPosition_before (start : Position) : lastPosition start (f.before []) =
    .ok ((f.tokens.getLast?.map Token.position).getD start) (f.before []) := by
  refine (bind_of_ok (index_before [])).trans ?_
  obtain hnil | ⟨us, last, hconcat⟩ := List.eq_nil_or_concat f.tokens
  · rw [hnil]
    rfl
  · rw [List.concat_eq_append] at hconcat
    have hlast : [last] <:+ f.tokens := ⟨us, hconcat.symm⟩
    have hpos : 0 < f.tokens.length := by rw [hconcat]; simp
    rw [List.length_nil, Nat.sub_zero, if_pos hpos, hconcat, List.getLast?_concat]
    exact bind_of_ok (previous_before hlast)

theorem script_before (f : Feed) :
    script (f.before f.tokens) =
      match Parsing.script f.tokens f.stop with
      | .ok s => .ok s (f.before [])
      | .error e =>
        if e.complaint = .tooDeep then .error .tooDeep ⟨f.tokens ++ [.final f.stop], e.offender⟩
        else .error (.refused e.complaint e.position) ⟨f.tokens ++ [.final f.stop], e.resume⟩ := by
  obtain ⟨first, hfirst, hstart⟩ := peek_before (f := f) (List.suffix_refl f.tokens)
  have hbody := statements_before (List.suffix_refl f.tokens) (Nat.lt_succ_self _) (Nat.le_refl _)
  refine (bind_of_ok hfirst).trans ((bind_of_ok (size_before _)).trans ?_)
  rw [Parsing.script]
  cases hs : Parsing.statements f.tokens.length f.tokens with
  | error stuck =>
    rw [hs] at hbody
    refine (bind_of_error hbody).trans ?_
    simp only [Feed.halt, Stuck.settled]
    split_ifs <;> rfl
  | ok body =>
    rw [hs] at hbody
    refine (bind_of_ok hbody).trans ?_
    refine (bind_of_ok (lastPosition_before first.position)).trans ?_
    rw [← hstart]
    rfl

end Parser

end GeoLint
