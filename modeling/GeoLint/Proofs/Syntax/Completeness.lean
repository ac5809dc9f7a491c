import GeoLint.Proofs.Syntax.Soundness

/-!
# What the parser finds

The converse of soundness: a phrase that the grammar derives is what the parser finds, unless it
gives up on the depth (`Finds`).  That last case is part of the specification, so that it is
settled once, in the lemma for sequencing (`Finds.bind`), and not at every call.

The induction is on derivations, with one statement for each form of phrase: an expression is found
in front of anything but an opening parenthesis (`Found`), the tail of a sequence in front of
anything that `more` stops at (`TailFound`), and arguments in front of their closing token
(`ArgumentsFound`).
-/

namespace GeoLint

namespace Parsing

open Token (Kind)
open Grammar

/-- The answer is `a`, unless expressions are nested too deep. -/
def Finds {α : Type} (r : Except Stuck α) (a : α) : Prop :=
  r = .ok a ∨ ∃ rest, r = .error ⟨.tooDeep, rest⟩

theorem Finds.bind {α β : Type} {r : Except Stuck α} {f : α → Except Stuck β} {a : α} {b : β}
    (h : Finds r a) (hf : Finds (f a) b) : Finds (r >>= f) b := by
  obtain rfl | ⟨rest, rfl⟩ := h
  · exact hf
  · exact .inr ⟨rest, rfl⟩

theorem expect_of_kind {kind : Kind} {t : Token} (h : t.kind = kind) (complaint : Complaint)
    (ts : List Token) : expect kind complaint (t :: ts) = .ok (t, ts) := by
  rw [expect, if_pos h]

theorem nextIs_of_kind {kind : Kind} {t : Token} (h : t.kind = kind) (ts : List Token) :
    nextIs kind (t :: ts) = true :=
  decide_eq_true h

theorem nextIs_append {kind : Kind} {ts : List Token} (h : nextIs kind ts = true)
    (us : List Token) : nextIs kind (ts ++ us) = true := by
  cases ts with
  | nil => cases h
  | cons t ts => exact h

theorem nextIs_eq_false {kind kind' : Kind} {ts : List Token} (h : nextIs kind ts = true)
    (hne : kind ≠ kind') : nextIs kind' ts = false := by
  cases ts with
  | nil => cases h
  | cons t ts =>
    have ht : t.kind = kind := of_decide_eq_true h
    exact decide_eq_false (ht ▸ hne)

theorem nextIs_of_opens {kind : Kind} {ts : List Token} (h : Opens ts)
    (hkind : opens kind = false) : nextIs kind ts = false := by
  obtain ⟨t, us, rfl, ht⟩ := h
  refine decide_eq_false ?_
  rintro rfl
  exact absurd ht (by rw [hkind]; decide)

/-- Every number token spells a number. -/
def Numerals (ts : List Token) : Prop :=
  ∀ t ∈ ts, t.kind = .number → ∃ x, numberValue? t.text = some x

theorem Numerals.mono {ts us : List Token} (h : Numerals ts) (hus : us ⊆ ts) : Numerals us :=
  fun t ht => h t (hus ht)

/-- The tokens are found to be the expression `e`, whatever follows but a parenthesis. -/
def Found (ts : List Token) (e : Expr) : Prop :=
  ∃ last, ts.getLast? = some last ∧ ∀ depth rest, nextIs .openParen rest = false →
    Finds (expression depth (ts ++ rest)) ⟨e, last.position, rest⟩

/-- At `rest`, a sequence stops, with the tokens `stop` behind it. -/
def StopsAt (trailing : Bool) (rest stop : List Token) : Prop :=
  ∀ item fuel, rest.length ≤ fuel → more item trailing fuel rest = .ok ([], stop)

/-- The tokens are found to be the rest `es` of a sequence. -/
def TailFound (ts : List Token) (es : List Expr) : Prop :=
  ∀ depth trailing rest stop fuel, nextIs .openParen rest = false → StopsAt trailing rest stop →
    (ts ++ rest).length ≤ fuel →
    Finds (more (expression depth) trailing fuel (ts ++ rest)) (es, stop)

/-- The tokens are found to be the sequence `es`: its first expression and then the others. -/
def SequenceFound (ts : List Token) (es : List Expr) : Prop :=
  ∃ us vs e es', ts = us ++ vs ∧ es = e :: es' ∧ Found us e ∧ TailFound vs es' ∧
    (vs = [] ∧ es' = [] ∨ nextIs .comma vs = true)

/-- The tokens are found to be the arguments `es` in front of the token that closes them. -/
def ArgumentsFound (ts : List Token) (es : List Expr) : Prop :=
  ∀ depth c complaint rest, c.kind = .closeParen ∨ c.kind = .closeBrace →
    Finds (enclosed (expression depth) c.kind complaint (ts ++ c :: rest)) ⟨es, c.position, rest⟩

/-- What there is to find in the tokens of a phrase. -/
def PhraseFound (ts : List Token) : Phrase → Prop
  | .expression e => Found ts e
  | .sequence es => SequenceFound ts es
  | .arguments es => ArgumentsFound ts es

/-! ### Expressions -/

theorem found_of_starting {t last : Token} {ts : List Token} {e : Expr}
    (hlast : (t :: ts).getLast? = some last)
    (h : ∀ depth rest, nextIs .openParen rest = false →
      Finds (starting (expression depth) t (ts ++ rest)) ⟨e, last.position, rest⟩) :
    Found (t :: ts) e := by
  refine ⟨last, hlast, fun depth rest hrest => ?_⟩
  cases depth with
  | zero => exact .inr ⟨_, rfl⟩
  | succ depth => exact h depth rest hrest

theorem ArgumentsFound.call {f p c : Token} {ts : List Token} {es : List Expr}
    (hf : f.kind = .identifier) (hp : p.kind = .openParen) (h : ArgumentsFound ts es)
    (hc : c.kind = .closeParen) :
    Found (f :: p :: (ts ++ [c])) (.call (nameOf f) es ⟨f.position, c.position⟩) := by
  refine found_of_starting (getLast?_closed f c (p :: ts)) fun depth rest _ => ?_
  have harguments := h depth c .unclosedCall rest (.inl hc)
  rw [hc] at harguments
  simp only [starting, hf, List.cons_append, nameOrCall, if_pos hp, List.append_assoc,
    List.nil_append]
  exact harguments.bind (.inl rfl)

theorem ArgumentsFound.list {o c : Token} {ts : List Token} {es : List Expr}
    (ho : o.kind = .openBrace) (h : ArgumentsFound ts es) (hc : c.kind = .closeBrace) :
    Found (o :: (ts ++ [c])) (.list es ⟨o.position, c.position⟩) := by
  refine found_of_starting (getLast?_closed o c ts) fun depth rest _ => ?_
  have harguments := h depth c .unclosedList rest (.inr hc)
  rw [hc] at harguments
  simp only [starting, ho, List.append_assoc, List.cons_append, List.nil_append]
  exact harguments.bind (.inl rfl)

/-- Behind an opening parenthesis where no closing one comes next. -/
theorem group_of_not {item : List Token → Except Stuck (Parsed Expr)} (hitem : Sound item)
    (start : Position) {ts : List Token} (h : nextIs .closeParen ts = false) :
    group item start ts = (do
      let e ← item ts
      if nextIs .comma e.rest then
        let a ← more item true e.rest.length e.rest
        let b ← expect .closeParen .unclosedGroup a.2
        return ⟨.tuple (e.value :: a.1) ⟨start, b.1.position⟩, b.1.position, b.2⟩
      else
        let b ← expect .closeParen .unclosedGroup e.rest
        return ⟨e.value, b.1.position, b.2⟩) := by
  cases ts with
  | nil =>
    -- No expression starts where the script ends, so nothing comes of what follows it.
    rw [group]
    cases hend : item [] with
    | error stuck => rfl
    | ok p =>
      obtain ⟨us, hp⟩ := (hitem []).of_ok hend
      obtain ⟨t, vs, rfl, -⟩ := hp.2.1.opens (by simp)
      cases hp.1
  | cons t ts => rw [group, if_neg (of_decide_eq_false h)]

theorem Found.group {o c : Token} {ts : List Token} {e : Expr} (ho : o.kind = .openParen)
    (h : Found ts e) (hopens : Opens ts) (hc : c.kind = .closeParen) :
    Found (o :: (ts ++ [c])) e := by
  refine found_of_starting (getLast?_closed o c ts) fun depth rest _ => ?_
  obtain ⟨last, -, hfound⟩ := h
  simp only [starting, ho, List.append_assoc, List.cons_append, List.nil_append]
  rw [group_of_not (sound_expression depth) _ (nextIs_of_opens (hopens.append _) rfl)]
  have hnext := nextIs_of_kind hc rest
  refine (hfound depth (c :: rest) (nextIs_eq_false hnext (by decide))).bind ?_
  rw [nextIs_eq_false hnext (by decide), expect_of_kind hc]
  exact .inl rfl

theorem stopsAt_of_ne_comma (trailing : Bool) {ts : List Token} (h : nextIs .comma ts = false) :
    StopsAt trailing ts ts := by
  intro item fuel _
  cases fuel with
  | zero => rfl
  | succ fuel =>
    cases ts with
    | nil => rfl
    | cons t ts => rw [more, if_neg (of_decide_eq_false h)]

theorem stopsAt_trailing {k : Token} {ts : List Token} (hk : k.kind = .comma)
    (h : nextIs .closeParen ts = true) : StopsAt true (k :: ts) ts := by
  intro item fuel hfuel
  cases fuel with
  | zero => exact absurd hfuel (Nat.not_succ_le_zero _)
  | succ fuel => rw [more, if_pos hk, h]; rfl

theorem SequenceFound.tuple {o c : Token} {ts ks : List Token} {es : List Expr}
    (ho : o.kind = .openParen) (h : SequenceFound ts es) (hopens : Opens ts)
    (hks : 2 ≤ es.length ∧ ks = [] ∨ ∃ k, ks = [k] ∧ k.kind = .comma)
    (hc : c.kind = .closeParen) :
    Found (o :: (ts ++ ks ++ [c])) (.tuple es ⟨o.position, c.position⟩) := by
  refine found_of_starting (getLast?_closed o c (ts ++ ks)) fun depth rest _ => ?_
  obtain ⟨us, vs, e, es', rfl, rfl, ⟨last, -, hfound⟩, htail, hvs⟩ := h
  have hclose := nextIs_of_kind hc rest
  have hstops : StopsAt true (ks ++ c :: rest) (c :: rest) := by
    obtain ⟨-, rfl⟩ | ⟨k, rfl, hk⟩ := hks
    · exact stopsAt_of_ne_comma true (nextIs_eq_false hclose (by decide))
    · exact stopsAt_trailing hk hclose
  have hparen : nextIs .openParen (ks ++ c :: rest) = false := by
    obtain ⟨-, rfl⟩ | ⟨k, rfl, hk⟩ := hks
    · exact nextIs_eq_false hclose (by decide)
    · exact nextIs_eq_false (nextIs_of_kind hk _) (by decide)
  -- A tuple of one expression has a comma as well: the trailing one.
  have hcomma : nextIs .comma (vs ++ (ks ++ c :: rest)) = true := by
    obtain ⟨rfl, rfl⟩ | hvs := hvs
    · obtain ⟨hes, -⟩ | ⟨k, rfl, hk⟩ := hks
      · exact absurd hes (by simp)
      · exact nextIs_of_kind hk _
    · exact nextIs_append hvs _
  have hopens : Opens (us ++ (vs ++ (ks ++ c :: rest))) := by
    rw [← List.append_assoc]
    exact hopens.append _
  simp only [starting, ho, List.append_assoc, List.cons_append, List.nil_append]
  rw [group_of_not (sound_expression depth) _ (nextIs_of_opens hopens rfl)]
  refine (hfound depth _ (nextIs_eq_false hcomma (by decide))).bind ?_
  rw [if_pos hcomma]
  refine (htail depth true _ _ _ hparen hstops (Nat.le_refl _)).bind ?_
  simp only [expect_of_kind hc]
  exact .inl rfl

theorem SequenceFound.arguments {ts : List Token} {es : List Expr} (h : SequenceFound ts es)
    (hopens : Opens ts) : ArgumentsFound ts es := by
  intro depth c complaint rest hc
  obtain ⟨us, vs, e, es', rfl, rfl, ⟨last, -, hfound⟩, htail, hvs⟩ := h
  have hnext : nextIs c.kind (us ++ vs ++ c :: rest) = false := by
    refine nextIs_of_opens (hopens.append _) ?_
    obtain hc | hc := hc <;> rw [hc] <;> rfl
  -- What closes the arguments neither goes on with the sequence nor makes a name a call.
  have hne : ∀ kind, kind = .comma ∨ kind = .openParen → nextIs kind (c :: rest) = false := by
    rintro kind (rfl | rfl) <;> refine nextIs_eq_false (nextIs_of_kind rfl rest) ?_ <;>
      obtain hc | hc := hc <;> rw [hc] <;> decide
  have hparen : nextIs .openParen (vs ++ c :: rest) = false := by
    obtain ⟨rfl, -⟩ | hvs := hvs
    · exact hne _ (.inr rfl)
    · exact nextIs_eq_false (nextIs_append hvs _) (by decide)
  rw [enclosed_eq, items, hnext, List.append_assoc]
  refine Finds.bind (a := (e :: es', c :: rest)) ?_ ?_
  · refine (hfound depth _ hparen).bind ?_
    refine (htail depth false _ _ _ (hne _ (.inr rfl))
      (stopsAt_of_ne_comma false (hne _ (.inl rfl))) (Nat.le_refl _)).bind ?_
    exact .inl rfl
  · rw [expect_of_kind rfl]
    exact .inl rfl

theorem SequenceFound.more {k : Token} {ts us : List Token} {e : Expr} {es : List Expr}
    (hts : Found ts e) (hk : k.kind = .comma) (h : SequenceFound us es)
    (hopens : Opens us) : SequenceFound (ts ++ k :: us) (e :: es) := by
  refine ⟨ts, k :: us, e, es, rfl, rfl, hts, ?_, .inr (nextIs_of_kind hk us)⟩
  intro depth trailing rest stop fuel hrest hstop hfuel
  -- An expression follows the comma, so it is not taken for a trailing one.
  have hclose : nextIs .closeParen (us ++ rest) = false :=
    nextIs_of_opens (hopens.append rest) rfl
  obtain ⟨us, vs, e', es', rfl, rfl, ⟨last, -, hfound⟩, htail, hvs⟩ := h
  have hparen : nextIs .openParen (vs ++ rest) = false := by
    obtain ⟨rfl, -⟩ | hvs := hvs
    · exact hrest
    · exact nextIs_eq_false (nextIs_append hvs _) (by decide)
  cases fuel with
  | zero => exact absurd hfuel (Nat.not_succ_le_zero _)
  | succ fuel =>
    rw [List.cons_append, Parsing.more, if_pos hk, hclose, Bool.and_false, List.append_assoc]
    refine (hfound depth _ hparen).bind ?_
    refine (htail depth trailing rest stop fuel hrest hstop ?_).bind (.inl rfl)
    simp only [List.length_append, List.length_cons] at hfuel ⊢
    omega

theorem found_of_leaf {t : Token} {e : Expr}
    (h : ∀ item rest, nextIs .openParen rest = false →
      starting item t rest = .ok ⟨e, t.position, rest⟩) : Found [t] e :=
  found_of_starting rfl fun _ rest hrest => .inl (h _ rest hrest)

theorem nameOrCall_eq_ok {f : Token} {rest : List Token} (hrest : nextIs .openParen rest = false)
    (item : List Token → Except Stuck (Parsed Expr)) :
    nameOrCall item f rest = .ok ⟨.name (nameOf f), f.position, rest⟩ := by
  cases rest with
  | nil => rfl
  | cons p rest => rw [nameOrCall, if_neg (of_decide_eq_false hrest)]

/-- What the grammar derives is found. -/
theorem phraseFound {ts : List Token} {p : Phrase} (h : Derives ts p) (hts : Numerals ts) :
    PhraseFound ts p := by
  -- On the derivation; every rule with phrases in it is one of the lemmas above.
  induction h with
  | @number t h =>
    obtain ⟨x, hx⟩ := hts t List.mem_cons_self h
    refine found_of_leaf fun item rest _ => ?_
    simp only [starting, h, hx, numberOf, Option.getD_some]
  | text h => exact found_of_leaf fun item rest _ => by simp only [starting, h]
  | truth h => exact found_of_leaf fun item rest _ => by simp only [starting, h]
  | name h =>
    refine found_of_leaf fun item rest hrest => ?_
    simp only [starting, h]
    exact nameOrCall_eq_ok hrest item
  | call hf hp _ hc ih =>
    have hes := ih (hts.mono fun t ht => by simp [ht])
    exact ArgumentsFound.call hf hp hes hc
  | list ho _ hc ih => exact ArgumentsFound.list ho (ih (hts.mono (by simp))) hc
  | @unit o c ho hc =>
    refine found_of_starting (getLast?_closed o c []) fun depth rest _ => .inl ?_
    simp only [starting, ho, List.cons_append, List.nil_append, group, if_pos hc]
  | group ho h hc ih => exact Found.group ho (ih (hts.mono (by simp))) (h.opens (by simp)) hc
  | tuple ho h hes hc ih =>
    have hseq := ih (hts.mono (by simp))
    have hfound := SequenceFound.tuple ho hseq (h.opens (by simp)) (.inl ⟨hes, rfl⟩) hc
    rwa [List.append_nil] at hfound
  | trailing ho h hk hc ih =>
    have hseq := ih (hts.mono (by simp))
    have hfound := SequenceFound.tuple ho hseq (h.opens (by simp)) (.inr ⟨_, rfl, hk⟩) hc
    rwa [List.append_assoc] at hfound
  | one _ ih =>
    refine ⟨_, [], _, [], (List.append_nil _).symm, rfl, ih hts, ?_, .inl ⟨rfl, rfl⟩⟩
    intro depth trailing rest stop fuel _ hstop hfuel
    exact .inl (hstop _ fuel hfuel)
  | more _ hk h ihe ih =>
    have he := ihe (hts.mono (by simp))
    have hes := ih (hts.mono (by simp))
    exact SequenceFound.more he hk hes (h.opens (by simp))
  | empty =>
    intro depth c complaint rest hc
    rw [enclosed_eq, items, List.nil_append, if_pos (nextIs_of_kind rfl rest)]
    refine Finds.bind (a := ([], c :: rest)) (.inl rfl) ?_
    rw [expect_of_kind rfl]
    exact .inl rfl
  | filled h ih => exact SequenceFound.arguments (ih hts) (h.opens (by simp))

/-! ### Statements -/

theorem finds_callStatement {f p c : Token} {ts : List Token} {es : List Expr}
    (hp : p.kind = .openParen) (h : Derives ts (.arguments es)) (hts : Numerals ts)
    (hc : c.kind = .closeParen) (start : Position) (rest : List Token) :
    Finds (callStatement start f (p :: (ts ++ c :: rest)))
      ⟨⟨nameOf f, es, ⟨start, c.position⟩⟩, c.position, rest⟩ := by
  have harguments := phraseFound h hts maxDepth c .unclosedCommand rest (.inl hc)
  rw [hc] at harguments
  rw [callStatement, expect_of_kind hp]
  exact harguments.bind (.inl rfl)

theorem not_startsCall_append {ts rest : List Token} {e : Expr} (h : ¬ StartsCall ts)
    (he : Derives ts (.expression e)) (hrest : nextIs .openParen rest = false) :
    ¬ StartsCall (ts ++ rest) := by
  rintro ⟨f, p, us, hts, hf, hp⟩
  obtain ⟨t, ts, rfl, -⟩ := he.opens (by simp)
  obtain ⟨rfl, htail⟩ := List.cons.inj hts
  cases ts with
  | nil =>
    obtain rfl : rest = p :: us := htail
    exact absurd hp (of_decide_eq_false hrest)
  | cons q ts =>
    obtain ⟨rfl, -⟩ := List.cons.inj htail
    exact h ⟨_, _, ts, rfl, hf, hp⟩

theorem finds_statement {ts : List Token} {s : Statement} (h : IsStatement ts s)
    (hts : Numerals ts) {rest : List Token} (hrest : nextIs .openParen rest = false) :
    ∃ last, Finds (statement (ts ++ rest)) ⟨s, last, rest⟩ := by
  cases h with
  | @call f p c ts es hf hp harguments hc =>
    have hq : ¬ p.kind = .equals := by rw [hp]; decide
    refine ⟨c.position, ?_⟩
    simp only [statement, List.cons_append, List.append_assoc, List.nil_append, expect_of_kind hf]
    change Finds (if p.kind = .equals then _ else _) _
    rw [if_neg hq]
    exact finds_callStatement hp harguments (hts.mono fun t ht => by simp [ht]) hc f.position rest
  | @assignedCall target q f p c ts es htarget hq hf hp harguments hc =>
    refine ⟨c.position, ?_⟩
    simp only [statement, List.cons_append, List.append_assoc, List.nil_append,
      expect_of_kind htarget]
    change Finds (if q.kind = .equals then _ else _) _
    rw [if_pos hq, assignment_call target hf hp]
    exact finds_callStatement hp harguments (hts.mono fun t ht => by simp [ht]) hc target.position
      rest
  | @assigned target q last ts e htarget hq he hcall hlast =>
    obtain ⟨last', hlast', hfound⟩ := phraseFound he (hts.mono fun t ht => by simp [ht])
    obtain rfl : last' = last := Option.some.inj (hlast'.symm.trans hlast)
    refine ⟨last'.position, ?_⟩
    simp only [statement, List.cons_append, expect_of_kind htarget]
    change Finds (if q.kind = .equals then _ else _) _
    rw [if_pos hq, assignment_plain target (not_startsCall_append hcall he hrest)]
    exact (hfound maxDepth rest hrest).bind (.inl rfl)

theorem nextIs_of_isStatement {ts : List Token} {s : Statement} (h : IsStatement ts s) :
    nextIs .identifier ts = true := by
  cases h with
  | call h | assignedCall h | assigned h => exact nextIs_of_kind h _

/-- Where a body goes on stands a separator or a name. -/
theorem nextIs_of_isBody {us vs : List Token} {body : List Statement} (hus : Separators us)
    (h : IsBody vs body) {kind : Kind} (hname : kind ≠ .identifier)
    (hkind : kind.separates = false) : nextIs kind (us ++ vs) = false := by
  cases us with
  | nil =>
    cases h with
    | nil => rfl
    | cons hs => exact nextIs_eq_false (nextIs_append (nextIs_of_isStatement hs) _) hname.symm
  | cons t us =>
    have ht : t.kind.separates = true := hus t List.mem_cons_self
    refine decide_eq_false ?_
    rintro rfl
    rw [hkind] at ht
    cases ht

theorem finds_separators {us vs : List Token} {body : List Statement} (hus : Separators us)
    (h : ∀ fuel, vs.length ≤ fuel → Finds (statements fuel vs) body) {fuel : Nat}
    (hfuel : (us ++ vs).length ≤ fuel) : Finds (statements fuel (us ++ vs)) body := by
  induction us generalizing fuel with
  | nil => exact h fuel hfuel
  | cons t us ih =>
    cases fuel with
    | zero => exact absurd hfuel (Nat.not_succ_le_zero _)
    | succ fuel =>
      rw [List.cons_append, statements, if_pos (hus t List.mem_cons_self)]
      exact ih (fun t ht => hus t (List.mem_cons_of_mem _ ht)) (Nat.le_of_succ_le_succ hfuel)

theorem finds_statements {ts : List Token} {body : List Statement} (h : IsBody ts body)
    (hts : Numerals ts) {fuel : Nat} (hfuel : ts.length ≤ fuel) :
    Finds (statements fuel ts) body := by
  induction h generalizing fuel with
  | nil => exact .inl (by cases fuel <;> rfl)
  | @cons ts us vs s ss hs hus hvs ih =>
    obtain ⟨last, hfound⟩ := finds_statement hs (hts.mono (by simp))
      (nextIs_of_isBody hus hvs (by decide) rfl)
    have hnext := (nextIs_of_isStatement hs)
    cases ts with
    | nil => cases hnext
    | cons t ts =>
      cases fuel with
      | zero => exact absurd hfuel (Nat.not_succ_le_zero _)
      | succ fuel =>
        have ht : t.kind = .identifier := of_decide_eq_true hnext
        rw [List.cons_append, statements, if_neg (by rw [ht]; decide)]
        -- Behind the statement the separators are used up first, then the body goes on.
        refine hfound.bind (.bind (finds_separators hus ?_ ?_) (.inl rfl))
        · exact fun fuel hfuel => ih (hts.mono fun t ht => by simp [ht]) hfuel
        · simp only [List.length_append, List.length_cons] at hfuel ⊢
          omega

/-! ### Scripts -/

/-- A script by the grammar is what the parser makes of the tokens, or they nest too deep. -/
theorem script_of_isScript {ts : List Token} {stop : Position} {s : Script}
    (h : IsScript (ts ++ [.final stop]) s) (hts : Numerals ts) :
    script ts stop = .ok s ∨ ∃ e, script ts stop = .error e ∧ e.complaint = .tooDeep := by
  generalize hall : ts ++ [Token.final stop] = all at h
  cases h with
  | @intro us vs stop' body hus hvs hstop =>
    -- Both lists end in one final token, so the tokens in front of it are the same.
    obtain ⟨rfl, hfinal⟩ := List.append_inj' hall rfl
    obtain rfl : Token.final stop = stop' := List.singleton_inj.1 hfinal
    have hbody : Finds (statements (us ++ vs).length (us ++ vs)) body :=
      finds_separators hus (fun fuel hfuel => finds_statements hvs (hts.mono (by simp)) hfuel)
        (Nat.le_refl _)
    rw [script]
    obtain hbody | ⟨rest, hbody⟩ := hbody
    · rw [hbody, extent_final]
      exact .inl rfl
    · rw [hbody]
      exact .inr ⟨_, rfl, rfl⟩

end Parsing

end GeoLint
