import GeoLint.Proofs.Syntax.Kinds
import GeoLint.Proofs.Syntax.Safety

/-!
# Errors are found at the first impossible token

Where the parser gets stuck, the tokens in front of the offending one can be completed to a script,
and with the offending one they cannot, whatever the tokens say beyond their kinds
(`error_at_first_impossible_token`).

* **They can be completed.**  Every function of the parser is `Viable`: the tokens that it has taken
  when it gets stuck are the start of a phrase of the kind it looks for.  Where the function of a
  longer phrase calls that of a shorter one, the shorter phrase is completed first and then the
  longer one around it (`Viable.lift`).
* **They cannot with the offending token.**  The grammar looks at kinds (`IsScript.of_kinds`), the
  parser finds every script of the grammar (`script_of_isScript`), and it would get stuck at the
  offending token again (`statements_same_error`).
-/

namespace GeoLint

namespace Parsing

open Token (Kind)
open Grammar

/-- If the parser gets stuck, though not for the depth, the tokens that it has taken are the start
of some that satisfy `P`. -/
def Viable {α : Type} (ts : List Token) (P : List Token → Prop) (r : Except Stuck α) : Prop :=
  ∀ stuck, r = .error stuck → stuck.complaint ≠ .tooDeep →
    ∃ us ws, ts = us ++ stuck.rest ∧ P (us ++ ws)

namespace Viable

variable {α β : Type} {ts us ws : List Token} {P Q : List Token → Prop}

theorem ok (a : α) : Viable ts P (.ok a : Except Stuck α) := by
  rintro stuck ⟨⟩

/-- Stuck at the first token, where any phrase will do. -/
theorem error (h : P ws) (complaint : Complaint) :
    Viable ts P (.error ⟨complaint, ts⟩ : Except Stuck α) := by
  rintro stuck ⟨⟩ -
  exact ⟨[], ws, rfl, h⟩

theorem bind {r : Except Stuck α} {k : α → Except Stuck β} (h : Viable ts P r)
    (hk : ∀ a, r = .ok a → Viable ts P (k a)) : Viable ts P (r >>= k) := by
  cases r with
  | ok a => exact hk a rfl
  | error stuck =>
    rintro _ ⟨⟩ hdeep
    exact h stuck rfl hdeep

/-- A phrase behind `vs` is completed, and what stands around it is completed after that. -/
theorem lift {r : Except Stuck α} (h : Viable us P r) (vs : List Token) (hts : ts = vs ++ us)
    (hP : ∀ us, P us → ∃ ws, Q (vs ++ (us ++ ws))) : Viable ts Q r := by
  intro stuck hstuck hdeep
  obtain ⟨taken, ws, hus, htaken⟩ := h stuck hstuck hdeep
  obtain ⟨more, hmore⟩ := hP _ htaken
  refine ⟨vs ++ taken, ws ++ more, ?_, ?_⟩
  · rw [hts, hus, List.append_assoc]
  · simpa using hmore

/-- The same where nothing is missing around the phrase. -/
theorem behind {r : Except Stuck α} (h : Viable us P r) (vs : List Token) (hts : ts = vs ++ us)
    (hP : ∀ us, P us → Q (vs ++ us)) : Viable ts Q r := by
  refine h.lift vs hts fun us hus => ⟨[], ?_⟩
  rw [List.append_nil]
  exact hP us hus

end Viable

/-- Some token of this kind. -/
def sample (kind : Kind) : Token := ⟨kind, "0", .origin⟩

/-- The tokens are an expression. -/
def IsExpression (us : List Token) : Prop := ∃ e, Derives us (.expression e)

/-- The tokens are arguments and the token that closes them. -/
def IsEnclosed (close : Kind) (us : List Token) : Prop :=
  ∃ vs c es, us = vs ++ [c] ∧ Derives vs (.arguments es) ∧ c.kind = close

theorem isExpression_sample : IsExpression [sample .number] := ⟨_, .number rfl⟩

/-- A sequence in parentheses is a group or a tuple. -/
theorem isExpression_of_sequence {o c : Token} {ts : List Token} {es : List Expr}
    (ho : o.kind = .openParen) (h : Derives ts (.sequence es)) (hc : c.kind = .closeParen) :
    IsExpression (o :: (ts ++ [c])) := by
  cases h with
  | one he => exact ⟨_, .group ho he hc⟩
  | more he hk hes =>
    exact ⟨_, .tuple ho (.more he hk hes) (Nat.succ_le_succ hes.length_pos) hc⟩

theorem viable_expect (kind : Kind) (complaint : Complaint) (ts : List Token) :
    Viable ts (fun us => ∃ c, us = [c] ∧ c.kind = kind) (expect kind complaint ts) := by
  cases hnext : nextIs kind ts with
  | false =>
    rw [expect_of_not hnext]
    exact .error ⟨sample kind, rfl, rfl⟩ complaint
  | true =>
    obtain ⟨t, us, rfl, ht⟩ := exists_cons_of_nextIs hnext
    rw [expect_of_kind ht]
    exact .ok _

/-! ### Expressions -/

section Sequences

variable {item : List Token → Except Stuck (Parsed Expr)} (hsound : Sound item)
variable (hitem : ∀ ts, Viable ts IsExpression (item ts))

include hsound hitem

theorem viable_more (trailing : Bool) (fuel : Nat) (ts : List Token) :
    Viable ts (fun us => ∃ es, Tail us es) (more item trailing fuel ts) := by
  induction fuel generalizing ts with
  | zero => exact .ok _
  | succ fuel ih =>
    cases ts with
    | nil => exact .ok _
    | cons k ts =>
      rw [more]
      by_cases hk : k.kind = .comma
      · rw [if_pos hk]
        split
        · exact .ok _
        · refine .bind ((hitem ts).behind [k] rfl ?_) fun p hp => ?_
          · rintro us ⟨e, he⟩
            exact ⟨[e], .inr ⟨k, us, rfl, hk, .one he⟩⟩
          · obtain ⟨vs, hts, hvs, -⟩ := (hsound ts).of_ok hp
            refine .bind ((ih p.rest).behind (k :: vs) (by rw [hts]; rfl) ?_) fun a _ => .ok _
            rintro us ⟨es, hes⟩
            exact ⟨p.value :: es, .inr ⟨k, vs ++ us, rfl, hk, hes.derives hvs⟩⟩
      · rw [if_neg hk]
        exact .ok _

theorem viable_enclosed (close : Kind) (complaint : Complaint) (ts : List Token) :
    Viable ts (IsEnclosed close) (enclosed item close complaint ts) := by
  have hitems : Viable ts (fun us => ∃ es, Derives us (.arguments es)) (items item close ts) := by
    rw [items]
    split
    · exact .ok _
    · refine .bind ((hitem ts).behind [] rfl ?_) fun p hp => ?_
      · rintro us ⟨e, he⟩
        exact ⟨[e], .filled (.one he)⟩
      · obtain ⟨vs, hts, hvs, -⟩ := (hsound ts).of_ok hp
        refine .bind ((viable_more hsound hitem false _ p.rest).behind _ hts ?_) fun a _ => .ok _
        rintro us ⟨es, hes⟩
        exact ⟨_, .filled (hes.derives hvs)⟩
  rw [enclosed_eq]
  refine .bind (hitems.lift [] rfl ?_) fun a ha => ?_
  · rintro us ⟨es, hes⟩
    exact ⟨[sample close], us, sample close, es, rfl, hes, rfl⟩
  · obtain ⟨vs, hts, hvs⟩ := (answers_items hsound close ts).of_ok ha
    refine .bind ((viable_expect close complaint a.2).behind _ hts ?_) fun b _ => .ok _
    rintro _ ⟨c, rfl, hc⟩
    exact ⟨vs, c, _, rfl, hvs, hc⟩

theorem viable_group {o : Token} (ho : o.kind = .openParen) (ts : List Token) :
    Viable ts (fun us => IsExpression (o :: us)) (group item o.position ts) := by
  cases hclose : nextIs .closeParen ts with
  | true =>
    obtain ⟨c, us, rfl, hc⟩ := exists_cons_of_nextIs hclose
    rw [group, if_pos hc]
    exact .ok _
  | false =>
    rw [group_of_not hsound o.position hclose]
    refine .bind ((hitem ts).lift [] rfl ?_) fun p hp => ?_
    · rintro us ⟨e, he⟩
      exact ⟨[sample .closeParen], e, .group ho he rfl⟩
    obtain ⟨vs, hts, hvs, -⟩ := (hsound ts).of_ok hp
    split
    · refine .bind ((viable_more hsound hitem true _ p.rest).lift _ hts ?_) fun a ha => ?_
      · rintro us ⟨es, hes⟩
        refine ⟨[sample .closeParen], ?_⟩
        rw [← List.append_assoc]
        exact isExpression_of_sequence ho (hes.derives hvs) rfl
      · obtain ⟨us, ks, hrest, htail, hks⟩ := (answers_more hsound true _ p.rest).of_ok ha
        have htaken : ts = (vs ++ us ++ ks) ++ a.2 := by rw [hts, hrest]; simp
        refine .bind ((viable_expect .closeParen .unclosedGroup a.2).behind _ htaken ?_)
          fun b _ => .ok _
        rintro _ ⟨c, rfl, hc⟩
        obtain rfl | ⟨-, k, rfl, hk⟩ := hks
        · rw [List.append_nil]
          exact isExpression_of_sequence ho (htail.derives hvs) hc
        · rw [List.append_assoc]
          exact ⟨_, .trailing ho (htail.derives hvs) hk hc⟩
    · refine .bind ((viable_expect .closeParen .unclosedGroup p.rest).behind _ hts ?_)
        fun b _ => .ok _
      rintro _ ⟨c, rfl, hc⟩
      exact ⟨p.value, .group ho hvs hc⟩

theorem viable_nameOrCall {f : Token} (hf : f.kind = .identifier) (ts : List Token) :
    Viable ts (fun us => IsExpression (f :: us)) (nameOrCall item f ts) := by
  cases hparen : nextIs .openParen ts with
  | false =>
    rw [nameOrCall_eq_ok hparen]
    exact .ok _
  | true =>
    obtain ⟨p, us, rfl, hp⟩ := exists_cons_of_nextIs hparen
    rw [nameOrCall, if_pos hp]
    refine .bind ((viable_enclosed hsound hitem .closeParen .unclosedCall us).behind [p] rfl
      ?_) fun as _ => .ok _
    rintro _ ⟨args, c, es, rfl, hargs, hc⟩
    exact ⟨_, .call hf hp hargs hc⟩

theorem viable_starting (t : Token) (ts : List Token) :
    Viable (t :: ts) IsExpression (starting item t ts) := by
  have hrefused (complaint : Complaint) : Viable (t :: ts) IsExpression
      (.error ⟨complaint, t :: ts⟩ : Except Stuck (Parsed Expr)) :=
    .error isExpression_sample complaint
  rw [starting]
  split
  case h_1 =>
    split
    · exact .ok _
    · exact hrefused _
  case h_2 | h_3 => exact .ok _
  case h_4 ho =>
    refine .bind ((viable_enclosed hsound hitem .closeBrace .unclosedList ts).behind [t] rfl
      ?_) fun es _ => .ok _
    rintro _ ⟨args, c, es, rfl, hargs, hc⟩
    exact ⟨_, .list ho hargs hc⟩
  case h_5 ho =>
    exact (viable_group hsound hitem ho ts).behind [t] rfl fun _ hus => hus
  case h_6 hf =>
    exact (viable_nameOrCall hsound hitem hf ts).behind [t] rfl fun _ hus => hus
  case h_7 => exact hrefused _

end Sequences

theorem viable_expression (depth : Nat) (ts : List Token) :
    Viable ts IsExpression (expression depth ts) := by
  induction depth generalizing ts with
  | zero =>
    rintro stuck ⟨⟩ hdeep
    exact absurd rfl hdeep
  | succ depth ih =>
    cases ts with
    | nil => exact .error isExpression_sample _
    | cons t ts => exact viable_starting (sound_expression depth) ih t ts

/-! ### Statements -/

theorem viable_callStatement (start : Position) (f : Token) (ts : List Token) :
    Viable ts (fun us => ∃ o vs, us = o :: vs ∧ o.kind = .openParen ∧ IsEnclosed .closeParen vs)
      (callStatement start f ts) := by
  refine .bind ((viable_expect .openParen .expectedArguments ts).lift [] rfl ?_)
    fun a ha => ?_
  · rintro _ ⟨o, rfl, ho⟩
    exact ⟨[sample .closeParen], o, _, rfl, ho, [], _, [], rfl, .empty, rfl⟩
  · have hcons := (answers_expect .openParen .expectedArguments ts).of_ok ha
    refine .bind ((viable_enclosed (sound_expression _) (viable_expression _) .closeParen
      .unclosedCommand a.2).behind [a.1] hcons.1 fun us hus => ?_) fun as _ => .ok _
    exact ⟨a.1, us, rfl, hcons.2, hus⟩

theorem viable_assignment {target q : Token} (htarget : target.kind = .identifier)
    (hq : q.kind = .equals) (ts : List Token) :
    Viable ts (fun us => ∃ s, IsStatement (target :: q :: us) s) (assignment target ts) := by
  by_cases hcall : StartsCall ts
  · obtain ⟨f, p, rest, rfl, hf, hp⟩ := hcall
    rw [assignment_call target hf hp]
    refine (viable_callStatement _ f (p :: rest)).behind [f] rfl ?_
    rintro _ ⟨o, _, rfl, ho, args, c, es, rfl, hargs, hc⟩
    exact ⟨_, .assignedCall htarget hq hf ho hargs hc⟩
  · rw [assignment_plain target hcall]
    refine .bind ((viable_expression maxDepth ts).behind [] rfl ?_) fun e _ => .ok _
    rintro us ⟨e, he⟩
    exact he.exists_isStatement htarget hq

theorem viable_statement (ts : List Token) :
    Viable ts (fun us => ∃ s, IsStatement us s) (statement ts) := by
  rw [statement_eq]
  refine .bind ((viable_expect .identifier .expectedName ts).lift [] rfl ?_) fun a ha => ?_
  · rintro _ ⟨f, rfl, hf⟩
    exact ⟨[sample .openParen, sample .closeParen], _, .call hf rfl .empty rfl⟩
  · obtain ⟨hts, hf⟩ := (answers_expect .identifier .expectedName ts).of_ok ha
    split
    · rename_i hequals
      obtain ⟨q, rest, hq, hkind⟩ := exists_cons_of_nextIs hequals
      rw [hq] at hts ⊢
      exact (viable_assignment hf hkind rest).behind [a.1, q] hts fun _ hus => hus
    · refine (viable_callStatement _ a.1 a.2).behind [a.1] hts ?_
      rintro _ ⟨o, _, rfl, ho, args, c, es, rfl, hargs, hc⟩
      exact ⟨_, .call hf ho hargs hc⟩

theorem viable_statements (fuel : Nat) (ts : List Token) :
    Viable ts (fun us => ∃ seps vs body, us = seps ++ vs ∧ Separators seps ∧ IsBody vs body)
      (statements fuel ts) := by
  induction fuel generalizing ts with
  | zero => exact .ok _
  | succ fuel ih =>
    cases ts with
    | nil => exact .ok _
    | cons t ts =>
      rw [statements]
      split
      · rename_i ht
        refine (ih ts).behind [t] rfl ?_
        rintro _ ⟨seps, vs, body, rfl, hseps, hvs⟩
        exact ⟨t :: seps, vs, body, rfl, List.forall_mem_cons.2 ⟨ht, hseps⟩, hvs⟩
      · refine .bind ((viable_statement (t :: ts)).behind [] rfl ?_) fun p hp => ?_
        · rintro us ⟨s, hs⟩
          exact ⟨[], us ++ ([] ++ []), [s], by simp, by simp [Separators],
            .cons hs (by simp [Separators]) .nil⟩
        · obtain ⟨us, hts, hs⟩ := (answers_statement (t :: ts)).of_ok hp
          refine .bind ((ih p.rest).behind _ hts ?_) fun more _ => .ok _
          rintro _ ⟨seps, vs, body, rfl, hseps, hvs⟩
          exact ⟨[], us ++ (seps ++ vs), _, rfl, by simp [Separators], .cons hs hseps hvs⟩

/-! ### Scripts -/

theorem script_of_stuck {ts : List Token} {stuck : Stuck}
    (h : statements ts.length ts = .error stuck) (stop : Position) :
    ∃ e, script ts stop = .error e ∧ e.complaint = stuck.complaint := by
  rw [script, h]
  exact ⟨_, rfl, rfl⟩

/-- The token with a text that has a value, if it is a number. -/
def withValue (t : Token) : Token := if t.kind = .number then { t with text := "0" } else t

theorem kinds_map_withValue (ts : List Token) : kinds (ts.map withValue) = kinds ts := by
  rw [kinds, kinds, List.map_map]
  refine List.map_congr_left fun t _ => ?_
  rw [Function.comp_apply, withValue]
  split <;> rfl

theorem numerals_map_withValue (ts : List Token) : Numerals (ts.map withValue) := by
  intro t ht hkind
  obtain ⟨u, -, rfl⟩ := List.mem_map.1 ht
  rw [withValue] at hkind ⊢
  split
  · have hzero : (numberValue? "0").isSome = true := by decide +kernel
    exact Option.isSome_iff_exists.1 hzero
  · rename_i hu
    rw [if_neg hu] at hkind
    exact absurd hkind hu

/-- What the parser refuses is no script by the grammar, whatever the tokens say beyond their
kinds. -/
theorem kinds_ne_of_stuck {ts rest : List Token} {complaint : Complaint}
    (h : statements ts.length ts = .error ⟨complaint, rest⟩) (hdeep : complaint ≠ .tooDeep)
    (hts : Numerals ts) (stop : Position) {vs : List Token} {s : Script} (hvs : IsScript vs s) :
    kinds (ts ++ [.final stop]) ≠ kinds vs := by
  intro hkinds
  obtain ⟨e, he, hcomplaint⟩ := script_of_stuck h stop
  obtain ⟨s', hs'⟩ := hvs.of_kinds hkinds
  obtain hok | ⟨e', he', htoo⟩ := script_of_isScript hs' hts
  · rw [he] at hok
    cases hok
  · obtain rfl := Except.error.inj (he.symm.trans he')
    exact hdeep (hcomplaint.symm.trans htoo)

/-- Scripts of the same kinds up to the offending token are refused as well. -/
theorem kinds_ne_of_stuck_append {us vs : List Token} {t : Token} {complaint : Complaint}
    (h : statements (us ++ t :: vs).length (us ++ t :: vs) = .error ⟨complaint, t :: vs⟩)
    (hdeep : complaint ≠ .tooDeep) (hnumerals : Numerals (us ++ [t])) {final : Token}
    (hfinal : final.kind = .ending) {xs : List Token} {s : Script} (hxs : IsScript xs s)
    (ws : List Token) : kinds (us ++ [t] ++ ws ++ [final]) ≠ kinds xs := by
  -- What follows the offending token, with numbers that have values.
  have hstuck := statements_same_error h (ws.map withValue)
  have hsplit : us ++ t :: ws.map withValue = us ++ [t] ++ ws.map withValue := by simp
  rw [hsplit] at hstuck
  have hts : Numerals (us ++ [t] ++ ws.map withValue) := by
    intro u hu
    rcases List.mem_append.1 hu with hu | hu
    · exact hnumerals u hu
    · exact numerals_map_withValue ws u hu
  have hkinds : kinds (us ++ [t] ++ ws.map withValue ++ [final]) =
      kinds (us ++ [t] ++ ws ++ [final]) := by
    simp only [kinds_append, kinds_map_withValue]
  have hstop : kinds [final] = kinds [.final .origin] := congrArg (fun k => [k]) hfinal
  rw [← hkinds, kinds_append _ [final], hstop, ← kinds_append]
  exact kinds_ne_of_stuck hstuck hdeep hts .origin hxs

/-- A script does not start with tokens of these kinds, up to the first that the parser refuses. -/
theorem not_isScript_of_stuck {us rest : List Token} {complaint : Complaint} {stop : Position}
    (h : statements (us ++ rest).length (us ++ rest) = .error ⟨complaint, rest⟩)
    (hdeep : complaint ≠ .tooDeep) (hproper : ∀ t ∈ us ++ rest, t.kind ≠ .ending)
    (hnumerals : Numerals (us ++ rest)) {vs : List Token} {s : Script} (hvs : IsScript vs s) :
    ¬ kinds (us ++ (rest ++ [Token.final stop]).take 1) <+: kinds vs := by
  rintro ⟨more, hmore⟩
  obtain ⟨xs, final, rfl, hfinal, hxs⟩ := hvs.exists_final
  have hlast : kinds [final] = [.ending] := by rw [kinds, List.map_singleton, hfinal]
  rw [kinds_append xs, hlast] at hmore
  cases rest with
  | nil =>
    rw [List.append_nil] at h hnumerals
    change kinds (us ++ [Token.final stop]) ++ more = _ at hmore
    obtain rfl | ⟨more, k, rfl⟩ := List.eq_nil_or_concat more
    · refine kinds_ne_of_stuck h hdeep hnumerals stop hvs ?_
      rw [List.append_nil] at hmore
      rw [hmore, kinds_append, hlast]
    · -- Behind the end of a script there is nothing.
      rw [List.concat_eq_append, ← List.append_assoc] at hmore
      obtain ⟨hmore, -⟩ := List.append_inj' hmore rfl
      have hending : Kind.ending ∈ kinds xs := by
        rw [← hmore]
        simp [kinds, Token.final]
      obtain ⟨t, ht, hkind⟩ := List.mem_map.1 hending
      exact hxs t ht hkind
  | cons t rest =>
    change kinds (us ++ [t]) ++ more = _ at hmore
    obtain rfl | ⟨more, k, rfl⟩ := List.eq_nil_or_concat more
    · rw [List.append_nil, kinds_append] at hmore
      obtain ⟨-, ht⟩ := List.append_inj' hmore rfl
      exact hproper t (by simp) (List.singleton_inj.1 ht)
    · rw [List.concat_eq_append, ← List.append_assoc] at hmore
      obtain ⟨hmore, -⟩ := List.append_inj' hmore rfl
      obtain ⟨front, ws, rfl, hfront, -⟩ := List.map_eq_append_iff.1 hmore.symm
      have hfront : kinds front = kinds (us ++ [t]) := hfront
      refine kinds_ne_of_stuck_append h hdeep ?_ hfinal hvs ws ?_
      · exact hnumerals.mono (by simp)
      · simp only [kinds_append, hfront]

/-- The tokens behind the next separator, or none if there is no other. -/
theorem recover_cases (ts : List Token) :
    (∃ us t, ts = us ++ t :: recover ts ∧ t.kind.separates = true ∧
      ∀ u ∈ us, ¬ u.kind.separates = true) ∨
    recover ts = [] ∧ ∀ u ∈ ts, ¬ u.kind.separates = true := by
  induction ts with
  | nil => exact .inr ⟨rfl, by simp⟩
  | cons t ts ih =>
    rw [recover_cons]
    by_cases ht : t.kind.separates = true
    · rw [if_pos ht]
      exact .inl ⟨[], t, rfl, ht, by simp⟩
    · rw [if_neg ht]
      obtain ⟨us, u, hts, hu, hus⟩ | ⟨hnil, hts⟩ := ih
      · refine .inl ⟨t :: us, u, ?_, hu, List.forall_mem_cons.2 ⟨ht, hus⟩⟩
        exact congrArg (t :: ·) hts
      · exact .inr ⟨hnil, List.forall_mem_cons.2 ⟨ht, hts⟩⟩

end Parsing

open Grammar Parsing

/-- A separator has this index. -/
def SeparatorAt (ts : List Token) (i : Nat) : Prop :=
  ∃ t, ts[i]? = some t ∧ t.kind.separates = true

theorem not_separatorAt {us vs ws : List Token} (h : ∀ t ∈ vs, ¬ t.kind.separates = true) {k : Nat}
    (hle : us.length ≤ k) (hlt : k < us.length + vs.length) :
    ¬ SeparatorAt (us ++ (vs ++ ws)) k := by
  rintro ⟨t, ht, hseparates⟩
  rw [List.getElem?_append_right hle, List.getElem?_append_left (by omega)] at ht
  exact h t (List.mem_of_getElem? ht) hseparates

/-- Where the parser goes on after a complaint about the first of the tokens `rest`. -/
theorem resume_cases {us rest : List Token} {final : Token} (hfinal : final.kind = .ending) :
    (∃ j, us.length ≤ j ∧ SeparatorAt (us ++ (rest ++ [final])) j ∧
      (∀ k, us.length ≤ k → k < j → ¬ SeparatorAt (us ++ (rest ++ [final])) k) ∧
      (us ++ rest).length - (recover rest).length = j + 1) ∨
    (∀ k, us.length ≤ k → ¬ SeparatorAt (us ++ (rest ++ [final])) k) ∧
      (us ++ rest).length - (recover rest).length + 1 = (us ++ (rest ++ [final])).length := by
  obtain ⟨vs, t, hrest, ht, hvs⟩ | ⟨hnil, hrest⟩ := recover_cases rest
  · refine .inl ⟨us.length + vs.length, Nat.le_add_right _ _, ⟨t, ?_, ht⟩, fun k hle hlt => ?_, ?_⟩
    · rw [hrest]
      simp
    · rw [hrest, List.append_assoc]
      exact not_separatorAt hvs hle hlt
    · have hlength := congrArg List.length hrest
      rw [List.length_append, List.length_cons] at hlength
      rw [List.length_append]
      omega
  · refine .inr ⟨fun k hle => ?_, by rw [hnil]; simp; omega⟩
    have hall : ∀ t ∈ rest ++ [final], ¬ t.kind.separates = true := by
      intro t ht
      rcases List.mem_append.1 ht with ht | ht
      · exact hrest t ht
      · rw [List.mem_singleton.1 ht, hfinal]
        decide
    rintro ⟨t, ht, hseparates⟩
    rw [List.getElem?_append_right hle] at ht
    exact hall t (List.mem_of_getElem? ht) hseparates

/-- **The first impossible token is the one complained about, and the next separator is where the
parser goes on.**  Unless the nesting is too deep, the tokens in front of the offending one start
some script and with it, whatever the tokens say beyond their kinds, they start none.  The parser is
left behind the first separator from the offending token on, or at the end of input if there is
none, whatever it has parsed before. -/
theorem error_at_first_impossible_token {source : String} {e : SyntaxError}
    (h : Script.parse source = .error e) (hdeep : e.complaint ≠ .tooDeep) :
    (∃ t, (Token.tokenize source)[e.offender]? = some t ∧ t.position = e.position) ∧
    (∃ ws s, IsScript ((Token.tokenize source).take e.offender ++ ws) s) ∧
    (∀ us s, IsScript us s →
      ¬ kinds ((Token.tokenize source).take (e.offender + 1)) <+: kinds us) ∧
    (∀ earlier, Parser.parse source earlier =
      .error (.refused e.complaint e.position) ⟨Token.tokenize source, e.resume⟩) ∧
    ((∃ j, e.offender ≤ j ∧ SeparatorAt (Token.tokenize source) j ∧
        (∀ k, e.offender ≤ k → k < j → ¬ SeparatorAt (Token.tokenize source) k) ∧
        e.resume = j + 1) ∨
      (∀ k, e.offender ≤ k → ¬ SeparatorAt (Token.tokenize source) k) ∧
        e.resume + 1 = (Token.tokenize source).length) := by
  obtain ⟨rest, ⟨us, hus⟩, hstuck, hposition, hoffender, hresume⟩ :=
    stuck_of_script ((parse_eq source).symm.trans h)
  have htokens : Token.tokenize source = us ++ (rest ++ [.final (Token.scan source).2]) := by
    rw [← List.append_assoc, hus]
    rfl
  have hindex : e.offender = us.length := by
    rw [hoffender, ← hus, List.length_append, Nat.add_sub_cancel]
  have hrun (earlier : Parser) := Parser.parse_eq_parse source earlier
  simp only [h, if_neg hdeep] at hrun
  refine ⟨?_, ?_, fun vs s hvs => ?_, hrun, ?_⟩
  · rw [htokens, hindex, List.getElem?_append_right (Nat.le_refl _), Nat.sub_self, hposition]
    cases rest with
    | nil => exact ⟨_, rfl, rfl⟩
    | cons t rest => exact ⟨t, rfl, rfl⟩
  · obtain ⟨taken, ws, htaken, seps, vs, body, hws, hseps, hvs⟩ :=
      viable_statements _ (Token.scan source).1 _ hstuck hdeep
    obtain rfl : us = taken := List.append_cancel_right (hus.trans htaken)
    rw [htokens, hindex, List.take_left]
    have hscript := IsScript.intro hseps hvs (rfl : (Token.final .origin).kind = .ending)
    rw [← hws, List.append_assoc] at hscript
    exact ⟨_, _, hscript⟩
  · rw [htokens, hindex, List.take_length_add_append]
    rw [← hus] at hstuck
    refine not_isScript_of_stuck hstuck hdeep (fun t ht => ?_) ?_ hvs
    · exact Token.kind_ne_ending (hus ▸ ht)
    · rw [hus]
      exact (numerals_tokenize source).mono (List.subset_append_left _ _)
  · rw [htokens, hindex, hresume, ← hus]
    exact resume_cases rfl

/-- The separator is the offending token, and it is passed. -/
theorem error_at_first_impossible_token_separator :
    (∃ e, Script.parse "A(1;b" = .error e ∧ e.offender = 3 ∧ e.complaint ≠ .tooDeep) ∧
      (∃ ws s, IsScript ((Token.tokenize "A(1;b").take 3 ++ ws) s) ∧
      (∀ us s, IsScript us s → ¬ kinds ((Token.tokenize "A(1;b").take 4) <+: kinds us) ∧
      ∀ earlier, Parser.parse "A(1;b" earlier =
        .error (.refused .unclosedCommand ⟨1, 4⟩) ⟨Token.tokenize "A(1;b", 4⟩ := by
  have h : Script.parse "A(1;b" = .error ⟨.unclosedCommand, ⟨1, 4⟩, 3, 4⟩ := by rfl
  have hdeep : Complaint.unclosedCommand ≠ .tooDeep := by decide
  obtain ⟨-, hviable, himpossible, hrun, -⟩ := error_at_first_impossible_token h hdeep
  exact ⟨⟨_, h, rfl, hdeep⟩, hviable, himpossible, hrun⟩

end GeoLint
