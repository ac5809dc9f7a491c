import GeoLint.Proofs.Syntax.Grammar
import Mathlib.Data.List.Infix

/-!
# What the parser accepts

Every function of the parser gets one specification, `Answers ts P r`: the answer `r` about the
tokens `ts` is either a result with property `P` or a complaint about one of the tokens.  For a
result, `P` says that the tokens taken derive it in the grammar (`Grammar.Derives`).

The functions for sequences are specified for any `item` that is `Sound`, and `expression` is
`Sound` at every depth (`sound_expression`).  Statements and scripts follow (`answers_statement`,
`answers_statements`, `isScript_of_parse`).
-/

namespace GeoLint

namespace Parsing

open Token (Kind)
open Grammar

/-- `r` is a result that satisfies `P`, or a complaint about one of the tokens `ts` or their end. -/
def Answers {α : Type} (ts : List Token) (P : α → Prop) : Except Stuck α → Prop
  | .ok a => P a
  | .error stuck => stuck.rest <:+ ts

namespace Answers

variable {α β : Type} {ts us : List Token} {P : α → Prop} {Q : β → Prop}

theorem bind {r : Except Stuck α} {f : α → Except Stuck β} (h : Answers ts P r)
    (hf : ∀ a, P a → Answers ts Q (f a)) : Answers ts Q (r >>= f) := by
  cases r with
  | ok a => exact hf a h
  | error stuck => exact h

theorem of_suffix {r : Except Stuck α} (h : Answers us P r) (hus : us <:+ ts) :
    Answers ts P r := by
  cases r with
  | ok a => exact h
  | error stuck => exact h.trans hus

theorem mono {P' : α → Prop} {r : Except Stuck α} (h : Answers ts P r) (hP : ∀ a, P a → P' a) :
    Answers ts P' r := by
  cases r with
  | ok a => exact hP a h
  | error stuck => exact h

theorem of_ok {r : Except Stuck α} {a : α} (h : Answers ts P r) (ha : r = .ok a) : P a := by
  rwa [ha] at h

theorem of_error {r : Except Stuck α} {stuck : Stuck} (h : Answers ts P r)
    (hstuck : r = .error stuck) : stuck.rest <:+ ts := by
  rwa [hstuck] at h

end Answers

theorem answers_expect (kind : Kind) (complaint : Complaint) (ts : List Token) :
    Answers ts (fun a => ts = a.1 :: a.2 ∧ a.1.kind = kind) (expect kind complaint ts) := by
  cases ts with
  | nil => exact List.suffix_refl _
  | cons t ts =>
    rw [expect]
    split
    · exact ⟨rfl, ‹_›⟩
    · exact List.suffix_refl _

/-- The tokens `us` in front of `p.rest` derive the expression `p.value` and end at `p.last`. -/
def TakesExpression (us ts : List Token) (p : Parsed Expr) : Prop :=
  ts = us ++ p.rest ∧ Derives us (.expression p.value) ∧
    ∃ last, us.getLast? = some last ∧ last.position = p.last

theorem TakesExpression.suffix {us ts : List Token} {p : Parsed Expr}
    (h : TakesExpression us ts p) : p.rest <:+ ts :=
  ⟨us, h.1.symm⟩

/-- The parser takes expressions only. -/
def Sound (item : List Token → Except Stuck (Parsed Expr)) : Prop :=
  ∀ ts, Answers ts (fun p => ∃ us, TakesExpression us ts p) (item ts)

/-! ### Sequences -/

/-- A comma and expressions with commas between them, or nothing. -/
def Tail (us : List Token) (es : List Expr) : Prop :=
  us = [] ∧ es = [] ∨ ∃ k vs, us = k :: vs ∧ k.kind = .comma ∧ Derives vs (.sequence es)

theorem Tail.derives {ts us : List Token} {e : Expr} {es : List Expr}
    (hts : Derives ts (.expression e)) (h : Tail us es) :
    Derives (ts ++ us) (.sequence (e :: es)) := by
  obtain ⟨rfl, rfl⟩ | ⟨k, vs, rfl, hk, hvs⟩ := h
  · rw [List.append_nil]
    exact .one hts
  · exact .more hts hk hvs

/-- The comma behind a sequence that `more` may take. -/
def Trailing (trailing : Bool) (ks : List Token) : Prop :=
  ks = [] ∨ trailing = true ∧ ∃ k, ks = [k] ∧ k.kind = .comma

/-- Items separated by commas, if any, and the tokens from the closing one on. -/
def items (item : List Token → Except Stuck (Parsed Expr)) (close : Kind) (ts : List Token) :
    Except Stuck (List Expr × List Token) :=
  if nextIs close ts then .ok ([], ts)
  else do
    let e ← item ts
    let a ← more item false e.rest.length e.rest
    return (e.value :: a.1, a.2)

theorem enclosed_eq (item : List Token → Except Stuck (Parsed Expr)) (close : Kind)
    (complaint : Complaint) (ts : List Token) :
    enclosed item close complaint ts = (do
      let a ← items item close ts
      let b ← expect close complaint a.2
      return ⟨a.1, b.1.position, b.2⟩) := by
  unfold enclosed items
  split
  · rfl
  · simp only [bind_assoc, pure_bind]

section Sequences

variable {item : List Token → Except Stuck (Parsed Expr)} (hitem : Sound item)

include hitem

theorem answers_more (trailing : Bool) (fuel : Nat) (ts : List Token) :
    Answers ts (fun a => ∃ us ks, ts = us ++ (ks ++ a.2) ∧ Tail us a.1 ∧ Trailing trailing ks)
      (more item trailing fuel ts) := by
  -- On the fuel: without any the sequence ends here, which is always sound.
  induction fuel generalizing ts with
  | zero => exact ⟨[], [], rfl, .inl ⟨rfl, rfl⟩, .inl rfl⟩
  | succ fuel ih =>
    cases ts with
    | nil => exact ⟨[], [], rfl, .inl ⟨rfl, rfl⟩, .inl rfl⟩
    | cons t ts =>
      rw [more]
      by_cases hk : t.kind = .comma
      · rw [if_pos hk]
        split
        · rename_i htrailing
          rw [Bool.and_eq_true] at htrailing
          exact ⟨[], [t], rfl, .inl ⟨rfl, rfl⟩, .inr ⟨htrailing.1, t, rfl, hk⟩⟩
        · refine ((hitem ts).of_suffix (List.suffix_cons t ts)).bind fun p ⟨vs, hp⟩ => ?_
          have hsuffix : p.rest <:+ t :: ts := hp.suffix.trans (List.suffix_cons t ts)
          refine ((ih p.rest).of_suffix hsuffix).bind fun ⟨es, rest⟩ ⟨us, ks, hrest, hus, hks⟩ => ?_
          refine ⟨t :: (vs ++ us), ks, ?_, .inr ⟨t, vs ++ us, rfl, hk, hus.derives hp.2.1⟩, hks⟩
          rw [hp.1, hrest]
          simp
      · rw [if_neg hk]
        exact ⟨[], [], rfl, .inl ⟨rfl, rfl⟩, .inl rfl⟩

theorem answers_items (close : Kind) (ts : List Token) :
    Answers ts (fun a => ∃ us, ts = us ++ a.2 ∧ Derives us (.arguments a.1))
      (items item close ts) := by
  rw [items]
  split
  · exact ⟨[], rfl, .empty⟩
  · refine (hitem ts).bind fun p ⟨us, hp⟩ => ?_
    refine ((answers_more hitem false _ _).of_suffix hp.suffix).bind
      fun ⟨es, rest⟩ ⟨vs, ks, hrest, hvs, hks⟩ => ?_
    obtain rfl : ks = [] := hks.resolve_right (by simp)
    refine ⟨us ++ vs, ?_, .filled (hvs.derives hp.2.1)⟩
    rw [hp.1, hrest]
    simp

theorem answers_enclosed (close : Kind) (complaint : Complaint) (ts : List Token) :
    Answers ts (fun p => ∃ us c, ts = us ++ c :: p.rest ∧ Derives us (.arguments p.value) ∧
      c.kind = close ∧ c.position = p.last) (enclosed item close complaint ts) := by
  rw [enclosed_eq]
  refine (answers_items hitem close ts).bind fun ⟨es, rest⟩ ⟨us, hts, hus⟩ => ?_
  refine ((answers_expect close complaint rest).of_suffix ⟨us, hts.symm⟩).bind
    fun ⟨c, rest'⟩ ⟨hrest, hc⟩ => ?_
  exact ⟨us, c, by rw [hts, hrest], hus, hc, rfl⟩

theorem answers_group {o : Token} (ho : o.kind = .openParen) (ts : List Token) :
    Answers ts (fun p => ∃ us c, ts = us ++ c :: p.rest ∧
      Derives (o :: (us ++ [c])) (.expression p.value) ∧ c.position = p.last)
      (group item o.position ts) := by
  cases ts with
  | nil =>
    refine (hitem []).mono fun p ⟨us, hp⟩ => ?_
    obtain ⟨rfl, -⟩ := List.append_eq_nil_iff.1 hp.1.symm
    obtain ⟨t, vs, hvs, -⟩ := hp.2.1.opens (by simp)
    cases hvs
  | cons t ts =>
    rw [group]
    by_cases hclose : t.kind = .closeParen
    · rw [if_pos hclose]
      exact ⟨[], t, rfl, .unit ho hclose, rfl⟩
    rw [if_neg hclose]
    refine (hitem (t :: ts)).bind fun p ⟨us, hp⟩ => ?_
    by_cases hcomma : nextIs .comma p.rest = true
    · rw [if_pos hcomma]
      refine ((answers_more hitem true _ _).of_suffix hp.suffix).bind
        fun ⟨es, rest⟩ ⟨vs, ks, hvs, htail, hks⟩ => ?_
      have hsuffix : rest <:+ t :: ts :=
        (show rest <:+ p.rest from ⟨vs ++ ks, by rw [hvs, List.append_assoc]⟩).trans hp.suffix
      refine ((answers_expect _ _ rest).of_suffix hsuffix).bind fun ⟨c, rest'⟩ ⟨hrest, hc⟩ => ?_
      refine ⟨us ++ (vs ++ ks), c, ?_, ?_, rfl⟩
      · rw [hp.1, hvs]
        simp [hrest]
      · have hseq := htail.derives hp.2.1
        obtain rfl | ⟨-, k, rfl, hk⟩ := hks
        · -- Without a trailing comma, the comma seen is followed by more expressions.
          obtain ⟨rfl, rfl⟩ | ⟨k, ws, rfl, hk, hws⟩ := htail
          · have hcomma : c.kind = .comma := by simpa [hvs, hrest, nextIs] using hcomma
            exact absurd (hc.symm.trans hcomma) (by decide)
          · rw [List.append_nil]
            exact .tuple ho hseq (Nat.succ_le_succ hws.length_pos) hc
        · have := Derives.trailing ho hseq hk hc
          simpa using this
    · rw [if_neg hcomma]
      refine ((answers_expect _ _ _).of_suffix hp.suffix).bind fun ⟨c, rest⟩ ⟨hrest, hc⟩ => ?_
      exact ⟨us, c, by rw [hp.1, hrest], .group ho hp.2.1 hc, rfl⟩

theorem answers_nameOrCall {f : Token} (hf : f.kind = .identifier) (ts : List Token) :
    Answers ts (fun p => ∃ us, TakesExpression (f :: us) (f :: ts) p) (nameOrCall item f ts) := by
  have hname : ∀ ts, TakesExpression [f] (f :: ts) ⟨.name (nameOf f), f.position, ts⟩ :=
    fun ts => ⟨rfl, .name hf, f, rfl, rfl⟩
  cases ts with
  | nil => exact ⟨[], hname []⟩
  | cons p ts =>
    rw [nameOrCall]
    by_cases hp : p.kind = .openParen
    · rw [if_pos hp]
      refine ((answers_enclosed hitem _ _ ts).of_suffix (List.suffix_cons p ts)).bind
        fun as ⟨us, c, hts, hus, hc, hlast⟩ => ?_
      refine ⟨p :: (us ++ [c]), by simp [hts], ?_, c, getLast?_closed f c (p :: us), hlast⟩
      rw [← hlast]
      exact .call hf hp hus hc
    · rw [if_neg hp]
      exact ⟨[], hname _⟩

theorem answers_starting (t : Token) (ts : List Token) :
    Answers (t :: ts) (fun p => ∃ us, TakesExpression us (t :: ts) p) (starting item t ts) := by
  rw [starting]
  split
  case h_1 h =>
    split
    · rename_i x hx
      have hvalue : numberOf t.text = x := by rw [numberOf, hx]; rfl
      exact ⟨[t], rfl, hvalue ▸ .number h, t, rfl, rfl⟩
    · exact List.suffix_refl _
  case h_2 h => exact ⟨[t], rfl, .text h, t, rfl, rfl⟩
  case h_3 h => exact ⟨[t], rfl, .truth h, t, rfl, rfl⟩
  case h_4 h =>
    refine ((answers_enclosed hitem _ _ ts).of_suffix (List.suffix_cons t ts)).bind
      fun es ⟨us, c, hts, hus, hc, hlast⟩ => ?_
    refine ⟨t :: (us ++ [c]), by simp [hts], ?_, c, getLast?_closed t c us, hlast⟩
    rw [← hlast]
    exact .list h hus hc
  case h_5 h =>
    refine ((answers_group hitem h ts).of_suffix (List.suffix_cons t ts)).mono
      fun p ⟨us, c, hts, hus, hlast⟩ => ?_
    exact ⟨t :: (us ++ [c]), by simp [hts], hus, c, getLast?_closed t c us, hlast⟩
  case h_6 h =>
    refine ((answers_nameOrCall hitem h ts).of_suffix (List.suffix_cons t ts)).mono
      fun p ⟨us, hp⟩ => ?_
    exact ⟨t :: us, hp⟩
  case h_7 => exact List.suffix_refl _

end Sequences

/-! ### Expressions and statements -/

theorem sound_expression (depth : Nat) : Sound (expression depth) := by
  induction depth with
  | zero => exact fun ts => List.suffix_refl _
  | succ depth ih =>
    rintro (_ | ⟨t, ts⟩)
    · exact List.suffix_refl _
    · exact answers_starting ih t ts

theorem answers_callStatement (start : Position) (f : Token) (ts : List Token) :
    Answers ts (fun p => ∃ o us c, ts = o :: (us ++ c :: p.rest) ∧ o.kind = .openParen ∧
      c.kind = .closeParen ∧ ∃ es, Derives us (.arguments es) ∧
        p.value = ⟨nameOf f, es, ⟨start, c.position⟩⟩) (callStatement start f ts) := by
  refine (answers_expect _ _ ts).bind fun ⟨o, rest⟩ ⟨hts, ho⟩ => ?_
  have hsuffix : rest <:+ ts := hts ▸ List.suffix_cons o rest
  refine ((answers_enclosed (sound_expression maxDepth) _ _ rest).of_suffix hsuffix).bind
    fun as ⟨us, c, hrest, hus, hc, hlast⟩ => ?_
  refine ⟨o, us, c, by rw [hts, hrest], ho, hc, as.value, hus, ?_⟩
  rw [hlast]

/-- The tokens `front` and those in front of `p.rest` are the statement `p.value`. -/
def TakesStatement (front ts : List Token) (p : Parsed Statement) : Prop :=
  ∃ us, ts = us ++ p.rest ∧ IsStatement (front ++ us) p.value

theorem assignment_call (target : Token) {f p : Token} (hf : f.kind = .identifier)
    (hp : p.kind = .openParen) (rest : List Token) :
    assignment target (f :: p :: rest) = callStatement target.position f (p :: rest) := by
  rw [assignment, if_pos (by simp [hf, hp])]

theorem assignment_plain (target : Token) {ts : List Token} (hcall : ¬ StartsCall ts) :
    assignment target ts = (do
      let e ← expression maxDepth ts
      return ⟨⟨nameOf target, [e.value], ⟨target.position, e.last⟩⟩, e.last, e.rest⟩) := by
  unfold assignment
  split
  · rename_i f p rest
    refine if_neg fun h => hcall ?_
    simp only [Bool.and_eq_true, decide_eq_true_eq] at h
    exact ⟨f, p, rest, rfl, h.1, h.2⟩
  · rfl

theorem answers_assignment {target q : Token} (htarget : target.kind = .identifier)
    (hq : q.kind = .equals) (ts : List Token) :
    Answers ts (TakesStatement [target, q] ts) (assignment target ts) := by
  -- The look-ahead is over `ts`, the condition of the grammar over the tokens taken.
  by_cases hcall : StartsCall ts
  · obtain ⟨f, p, rest, rfl, hf, hp⟩ := hcall
    rw [assignment_call target hf hp]
    refine ((answers_callStatement _ f _).of_suffix (List.suffix_cons f _)).mono
      fun s ⟨o, us, c, hts, ho, hc, es, hes, hs⟩ => ?_
    refine ⟨f :: o :: (us ++ [c]), by simp [hts], ?_⟩
    rw [hs]
    exact .assignedCall htarget hq hf ho hes hc
  · rw [assignment_plain target hcall]
    refine (sound_expression maxDepth ts).bind fun e ⟨us, hts, hus, last, hlast, hpos⟩ => ?_
    refine ⟨us, hts, ?_⟩
    rw [← hpos]
    refine .assigned htarget hq hus ?_ hlast
    rintro ⟨f, p, rest, rfl, hf, hp⟩
    exact hcall ⟨f, p, rest ++ e.rest, hts, hf, hp⟩

theorem answers_statement (ts : List Token) :
    Answers ts (TakesStatement [] ts) (statement ts) := by
  have hcall {f : Token} (hf : f.kind = .identifier) (rest : List Token) :
      Answers (f :: rest) (TakesStatement [] (f :: rest)) (callStatement f.position f rest) := by
    refine ((answers_callStatement _ f rest).of_suffix (List.suffix_cons f rest)).mono
      fun s ⟨o, us, c, hts, ho, hc, es, hes, hs⟩ => ?_
    refine ⟨f :: o :: (us ++ [c]), by simp [hts], ?_⟩
    rw [hs]
    exact .call hf ho hes hc
  refine (answers_expect _ _ ts).bind fun ⟨f, rest⟩ ⟨hts, hf⟩ => ?_
  subst hts
  cases rest with
  | nil => exact hcall hf []
  | cons q rest =>
    change Answers _ _ (if q.kind = .equals then assignment f rest else _)
    split
    · rename_i hq
      refine ((answers_assignment hf hq rest).of_suffix
        ((List.suffix_cons q rest).trans (List.suffix_cons f _))).mono fun s ⟨us, hrest, hs⟩ => ?_
      exact ⟨f :: q :: us, by rw [hrest]; rfl, hs⟩
    · exact hcall hf _

theorem answers_statements {fuel : Nat} {ts : List Token} (hfuel : ts.length ≤ fuel) :
    Answers ts (fun body => ∃ us vs, ts = us ++ vs ∧ Separators us ∧ IsBody vs body)
      (statements fuel ts) := by
  induction fuel generalizing ts with
  | zero =>
    obtain rfl := List.length_eq_zero_iff.1 (Nat.le_zero.1 hfuel)
    exact ⟨[], [], rfl, by simp [Separators], .nil⟩
  | succ fuel ih =>
    cases ts with
    | nil => exact ⟨[], [], rfl, by simp [Separators], .nil⟩
    | cons t ts =>
      rw [statements]
      by_cases ht : t.kind.separates = true
      · rw [if_pos ht]
        refine ((ih (Nat.le_of_succ_le_succ hfuel)).of_suffix (List.suffix_cons t ts)).mono
          fun body ⟨us, vs, hts, hus, hvs⟩ => ?_
        exact ⟨t :: us, vs, by rw [hts]; rfl, List.forall_mem_cons.2 ⟨ht, hus⟩, hvs⟩
      · rw [if_neg ht]
        refine (answers_statement (t :: ts)).bind fun s ⟨us, hts, hs⟩ => ?_
        -- A statement takes at least its name, so the fuel is enough for what follows.
        have hrest : s.rest.length ≤ fuel := by
          have hpos : 0 < us.length := hs.length_pos
          have hlength := congrArg List.length hts
          rw [List.length_append] at hlength
          omega
        refine ((ih hrest).of_suffix ⟨us, hts.symm⟩).bind fun body ⟨vs, ws, hrest, hvs, hws⟩ => ?_
        refine ⟨[], us ++ (vs ++ ws), by rw [hts, hrest]; rfl, by simp [Separators], ?_⟩
        exact .cons hs hvs hws

/-! ### Scripts -/

theorem extent_final (ts : List Token) (stop : Position) :
    extent ts (.final stop) =
      ⟨headPosition stop ts, (ts.getLast?.map Token.position).getD (headPosition stop ts)⟩ := by
  cases ts with
  | nil => rfl
  | cons t ts => simp [extent, headPosition, List.getLast?_cons]

theorem statements_of_script {ts : List Token} {stop : Position} {s : Script}
    (h : script ts stop = .ok s) : statements ts.length ts = .ok s.body := by
  rw [script] at h
  split at h
  · rename_i body hbody
    rw [hbody, ← Except.ok.inj h]
  · cases h

/-- What an error says of the tokens from the offending one on. -/
theorem stuck_of_script {ts : List Token} {stop : Position} {e : SyntaxError}
    (h : script ts stop = .error e) :
    ∃ rest, rest <:+ ts ∧ statements ts.length ts = .error ⟨e.complaint, rest⟩ ∧
      e.position = headPosition stop rest ∧ e.offender = ts.length - rest.length ∧
      e.resume = ts.length - (recover rest).length := by
  have hanswer := answers_statements (Nat.le_refl ts.length)
  rw [script] at h
  split at h
  · cases h
  · rename_i stuck hstuck
    rw [hstuck] at hanswer
    rw [hstuck, ← Except.error.inj h]
    exact ⟨stuck.rest, hanswer, rfl, rfl, rfl, rfl⟩

/-- The script that the parser makes of the tokens is one by the grammar. -/
theorem isScript_of_script {ts : List Token} {stop : Position} {s : Script}
    (h : script ts stop = .ok s) : IsScript (ts ++ [.final stop]) s := by
  have hanswer := answers_statements (Nat.le_refl ts.length)
  rw [script] at h
  split at h
  · rename_i body hbody
    rw [hbody] at hanswer
    obtain ⟨us, vs, rfl, hus, hvs⟩ := hanswer
    rw [← Except.ok.inj h, ← extent_final]
    exact .intro hus hvs rfl
  · cases h

/-- A complaint is about one of the tokens, or about the place where the script ends. -/
theorem position_of_script {ts : List Token} {stop : Position} {e : SyntaxError}
    (h : script ts stop = .error e) : ∃ t ∈ ts ++ [.final stop], t.position = e.position := by
  obtain ⟨rest, hrest, -, hposition, -⟩ := stuck_of_script h
  rw [hposition]
  cases rest with
  | nil => exact ⟨.final stop, by simp, rfl⟩
  | cons t rest =>
    have hmem : t ∈ ts := hrest.subset List.mem_cons_self
    exact ⟨t, List.mem_append_left _ hmem, rfl⟩

end Parsing

open Grammar Parsing

theorem parse_eq (source : String) :
    Script.parse source = script (Token.scan source).1 (Token.scan source).2 :=
  rfl

theorem isScript_of_parse {source : String} {s : Script} (h : Script.parse source = .ok s) :
    IsScript (Token.tokenize source) s := by
  rw [parse_eq] at h
  exact isScript_of_script h

theorem position_of_parse {source : String} {e : SyntaxError}
    (h : Script.parse source = .error e) :
    ∃ t ∈ Token.tokenize source, t.position = e.position := by
  rw [parse_eq] at h
  exact position_of_script h

end GeoLint
