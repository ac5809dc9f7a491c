import GeoLint.Proofs.Syntax.Viable

/-!
# Only nesting is too deep

Expressions nest less deep than `maxDepth`, and nothing else is limited: sequences and statements
may be as long as they like.  `too_deep_by_nesting` says this in terms of the brackets that are
open behind the first tokens of a script (`Token.unclosed`).

Every function of the parser gets one specification, `Nests before low high after ts r`: with
`before` brackets open in front of the tokens `ts`, the tokens that are taken for the answer `r`
never leave more than `high` open; they leave `after` open if there is a result, and at least `low`
if the parser gives up on the depth.  An expression takes its depth away from the limit, and
`Nests.bind` says that what comes one after the other does not.

* **Few brackets are never too deep**, because where the parser gives up `maxDepth` of them are open
  (`maxDepth_le_unclosed`).
* **Many brackets always are**, if the tokens up to there start some script: the parser does not
  complain about any of them (`not_isScript_of_stuck`), and it does not take so many
  (`unclosed_le_of_starts`).
-/

namespace GeoLint

namespace Token

/-- The number of brackets open behind a token.  A closing bracket closes one of either shape, if
any is open. -/
def nesting (depth : Nat) (t : Token) : Nat :=
  match t.kind with
  | .openParen | .openBrace => depth + 1
  | .closeParen | .closeBrace => depth - 1
  | _ => depth

/-- The number of brackets open behind the tokens of a script up to here. -/
def unclosed (ts : List Token) : Nat := ts.foldl nesting 0

end Token

namespace Parsing

open Token (Kind nesting unclosed)
open Grammar

/-- With `before` brackets open in front of `ts`, the tokens taken never leave more than `high`
open; they leave `after` open if `r` is a result, and at least `low` if the nesting is too deep. -/
def Nests {α : Type} [Leaves α] (before low high after : Nat) (ts : List Token)
    (r : Except Stuck α) : Prop :=
  ∃ us, ts = us ++ left r ∧ (∀ vs, vs <+: us → vs.foldl nesting before ≤ high) ∧
    match r with
    | .ok _ => us.foldl nesting before = after
    | .error stuck => stuck.complaint = .tooDeep → low ≤ us.foldl nesting before

namespace Nests

variable {α β : Type} [Leaves α] [Leaves β] {before low high after : Nat} {ts : List Token}

/-- Nothing is taken. -/
theorem ok {a : α} (h : Leaves.rest a = ts) (hhigh : before ≤ high) :
    Nests before low high before ts (.ok a : Except Stuck α) := by
  refine ⟨[], h.symm, fun vs hvs => ?_, rfl⟩
  rw [List.prefix_nil.1 hvs]
  exact hhigh

/-- A complaint about the first token. -/
theorem error (complaint : Complaint) (hlow : complaint = .tooDeep → low ≤ before)
    (hhigh : before ≤ high) :
    Nests before low high after ts (.error ⟨complaint, ts⟩ : Except Stuck α) := by
  refine ⟨[], rfl, fun vs hvs => ?_, hlow⟩
  rw [List.prefix_nil.1 hvs]
  exact hhigh

/-- One token is taken before. -/
theorem cons {r : Except Stuck α} (t : Token) (h : Nests (nesting before t) low high after ts r)
    (hhigh : before ≤ high) : Nests before low high after (t :: ts) r := by
  obtain ⟨us, rfl, hus, hr⟩ := h
  refine ⟨t :: us, rfl, fun vs hvs => ?_, hr⟩
  cases vs with
  | nil => exact hhigh
  | cons v vs =>
    obtain ⟨rfl, htail⟩ := List.cons_prefix_cons.1 hvs
    exact hus vs htail

theorem mono {low' high' : Nat} {r : Except Stuck α} (h : Nests before low high after ts r)
    (hlow : low' ≤ low) (hhigh : high ≤ high') : Nests before low' high' after ts r := by
  obtain ⟨us, hts, hus, hr⟩ := h
  refine ⟨us, hts, fun vs hvs => (hus vs hvs).trans hhigh, ?_⟩
  cases r with
  | ok a => exact hr
  | error stuck => exact fun hdeep => hlow.trans (hr hdeep)

/-- What follows a result starts with the brackets that it leaves open, and has the same limit. -/
theorem bind {mid : Nat} {r : Except Stuck α} {k : α → Except Stuck β}
    (h : Nests before low high mid ts r)
    (hk : ∀ a, r = .ok a → Nests mid low high after (Leaves.rest a) (k a)) :
    Nests before low high after ts (r >>= k) := by
  obtain ⟨us, hts, hus, hr⟩ := h
  cases r with
  | error stuck => exact ⟨us, hts, hus, hr⟩
  | ok a =>
    obtain ⟨ws, hrest, hws, hka⟩ := hk a rfl
    have hmid : us.foldl nesting before = mid := hr
    refine ⟨us ++ ws, ?_, fun vs hvs => ?_, ?_⟩
    · rw [hts, List.append_assoc]
      exact congrArg (us ++ ·) hrest
    · obtain hvs | ⟨vs, rfl⟩ := List.prefix_or_prefix_of_prefix hvs (List.prefix_append us ws)
      · exact hus vs hvs
      · rw [List.foldl_append, hmid]
        exact hws vs ((List.prefix_append_right_inj us).1 hvs)
    · rw [List.foldl_append, hmid]
      exact hka

end Nests

/-! ### Single tokens -/

theorem nesting_of_separates {t : Token} (h : t.kind.separates = true) (depth : Nat) :
    nesting depth t = depth := by
  rw [Kind.separates, Bool.or_eq_true, decide_eq_true_eq, decide_eq_true_eq] at h
  rcases h with h | h <;> rw [nesting, h]

theorem nesting_of_closes {c : Token} (h : c.kind = .closeParen ∨ c.kind = .closeBrace)
    (depth : Nat) : nesting (depth + 1) c = depth := by
  rcases h with h | h <;> simp [nesting, h]

/-- A token of some kind is taken, and the complaint about another is not about the depth. -/
theorem nests_expect {kind : Kind} {complaint : Complaint} (hcomplaint : complaint ≠ .tooDeep)
    {before low high after : Nat} (hafter : ∀ t : Token, t.kind = kind → nesting before t = after)
    (hbefore : before ≤ high) (hhigh : after ≤ high) (ts : List Token) :
    Nests before low high after ts (expect kind complaint ts) := by
  cases hnext : nextIs kind ts with
  | false =>
    rw [expect_of_not hnext]
    exact .error complaint (fun hdeep => absurd hdeep hcomplaint) hbefore
  | true =>
    obtain ⟨t, us, rfl, ht⟩ := exists_cons_of_nextIs hnext
    rw [expect_of_kind ht]
    refine .cons t ?_ hbefore
    rw [hafter t ht]
    exact .ok rfl hhigh

/-! ### Expressions -/

/-- The expressions that are found nest at most `depth` deep, and `depth` brackets are open where
the parser gives up. -/
def NestsItem (depth : Nat) (item : List Token → Except Stuck (Parsed Expr)) : Prop :=
  ∀ before ts, Nests before (before + depth) (before + depth) before ts (item ts)

section Sequences

variable {item : List Token → Except Stuck (Parsed Expr)} {depth : Nat}
variable (hsound : Sound item) (hitem : NestsItem depth item)

include hitem

theorem nests_more (trailing : Bool) (fuel before : Nat) (ts : List Token) :
    Nests before (before + depth) (before + depth) before ts (more item trailing fuel ts) := by
  induction fuel generalizing ts with
  | zero => exact .ok rfl (Nat.le_add_right _ _)
  | succ fuel ih =>
    cases ts with
    | nil => exact .ok rfl (Nat.le_add_right _ _)
    | cons k ts =>
      rw [more]
      by_cases hk : k.kind = .comma
      · have hcomma : nesting before k = before := by rw [nesting, hk]
        rw [if_pos hk]
        refine .cons k ?_ (Nat.le_add_right _ _)
        rw [hcomma]
        split
        · exact .ok rfl (Nat.le_add_right _ _)
        · refine (hitem before ts).bind fun p _ => (ih p.rest).bind fun a _ => ?_
          exact .ok rfl (Nat.le_add_right _ _)
      · rw [if_neg hk]
        exact .ok rfl (Nat.le_add_right _ _)

/-- Arguments and what closes them, with their opening bracket in front. -/
theorem nests_enclosed {close : Kind} {complaint : Complaint} (hcomplaint : complaint ≠ .tooDeep)
    (hclose : close = .closeParen ∨ close = .closeBrace) (before : Nat) (ts : List Token) :
    Nests (before + 1) (before + 1 + depth) (before + 1 + depth) before ts
      (enclosed item close complaint ts) := by
  rw [enclosed_eq]
  have hitems : Nests (before + 1) (before + 1 + depth) (before + 1 + depth) (before + 1) ts
      (items item close ts) := by
    rw [items]
    split
    · exact .ok rfl (Nat.le_add_right _ _)
    · refine (hitem _ ts).bind fun p _ => (nests_more hitem false _ _ p.rest).bind fun a _ => ?_
      exact .ok rfl (Nat.le_add_right _ _)
  refine hitems.bind fun a _ => ?_
  have hafter (c : Token) (hc : c.kind = close) : nesting (before + 1) c = before :=
    nesting_of_closes (by rwa [hc]) before
  refine (nests_expect hcomplaint hafter (by omega) (by omega) a.2).bind fun b _ => ?_
  exact .ok rfl (by omega)

theorem nests_nameOrCall (f : Token) (before : Nat) (ts : List Token) :
    Nests before (before + (depth + 1)) (before + (depth + 1)) before ts
      (nameOrCall item f ts) := by
  cases hparen : nextIs .openParen ts with
  | false =>
    rw [nameOrCall_eq_ok hparen]
    exact .ok rfl (Nat.le_add_right _ _)
  | true =>
    obtain ⟨p, us, rfl, hp⟩ := exists_cons_of_nextIs hparen
    rw [nameOrCall, if_pos hp]
    have hlimit : before + (depth + 1) = before + 1 + depth := by omega
    refine .cons p ?_ (Nat.le_add_right _ _)
    rw [nesting, hp, hlimit]
    refine (nests_enclosed hitem (by decide) (.inl rfl) before us).bind fun as _ => ?_
    exact .ok rfl (by omega)

include hsound

theorem nests_group (start : Position) (before : Nat) (ts : List Token) :
    Nests (before + 1) (before + 1 + depth) (before + 1 + depth) before ts
      (group item start ts) := by
  have hclose (ts : List Token) : Nests (before + 1) (before + 1 + depth) (before + 1 + depth)
      before ts (expect .closeParen .unclosedGroup ts) :=
    nests_expect (by decide) (fun c hc => nesting_of_closes (.inl hc) before) (by omega) (by omega)
      ts
  cases hnext : nextIs .closeParen ts with
  | true =>
    obtain ⟨c, us, rfl, hc⟩ := exists_cons_of_nextIs hnext
    rw [group, if_pos hc]
    refine .cons c ?_ (by omega)
    rw [nesting_of_closes (.inl hc)]
    exact .ok rfl (by omega)
  | false =>
    rw [group_of_not hsound start hnext]
    refine (hitem _ ts).bind fun p _ => ?_
    split
    · refine (nests_more hitem true _ _ p.rest).bind fun a _ => (hclose a.2).bind fun b _ => ?_
      exact .ok rfl (by omega)
    · exact (hclose p.rest).bind fun b _ => .ok rfl (by omega)

theorem nests_starting (t : Token) (before : Nat) (ts : List Token) :
    Nests before (before + (depth + 1)) (before + (depth + 1)) before (t :: ts)
      (starting item t ts) := by
  have hleaf (p : Parsed Expr) (hp : p.rest = ts) (ht : nesting before t = before) :
      Nests before (before + (depth + 1)) (before + (depth + 1)) before (t :: ts)
        (.ok p : Except Stuck (Parsed Expr)) := by
    refine .cons t ?_ (Nat.le_add_right _ _)
    rw [ht]
    exact .ok hp (Nat.le_add_right _ _)
  have hrefused (complaint : Complaint) (hcomplaint : complaint ≠ .tooDeep) :
      Nests before (before + (depth + 1)) (before + (depth + 1)) before (t :: ts)
        (.error ⟨complaint, t :: ts⟩ : Except Stuck (Parsed Expr)) :=
    .error complaint (fun hdeep => absurd hdeep hcomplaint) (Nat.le_add_right _ _)
  have hlimit : before + (depth + 1) = before + 1 + depth := by omega
  rw [starting]
  split
  case h_1 ht =>
    split
    · exact hleaf _ rfl (by rw [nesting, ht])
    · exact hrefused _ (by simp)
  case h_2 ht | h_3 ht => exact hleaf _ rfl (by rw [nesting, ht])
  case h_4 ht =>
    refine .cons t ?_ (Nat.le_add_right _ _)
    rw [nesting, ht, hlimit]
    refine (nests_enclosed hitem (by decide) (.inr rfl) before ts).bind fun es _ => ?_
    exact .ok rfl (by omega)
  case h_5 ht =>
    refine .cons t ?_ (Nat.le_add_right _ _)
    rw [nesting, ht, hlimit]
    exact nests_group hsound hitem t.position before ts
  case h_6 ht =>
    refine .cons t ?_ (Nat.le_add_right _ _)
    rw [nesting, ht]
    exact nests_nameOrCall hitem t before ts
  case h_7 => exact hrefused _ (by simp)

end Sequences

theorem nestsItem_expression (depth : Nat) : NestsItem depth (expression depth) := by
  induction depth with
  | zero => exact fun before ts => .error .tooDeep (fun _ => Nat.le_refl _) (Nat.le_refl _)
  | succ depth ih =>
    intro before ts
    cases ts with
    | nil => exact .error _ (by simp) (Nat.le_add_right _ _)
    | cons t ts => exact nests_starting (sound_expression depth) ih t before ts

/-! ### Statements -/

theorem nests_callStatement (start : Position) (f : Token) (ts : List Token) :
    Nests 0 maxDepth (maxDepth + 1) 0 ts (callStatement start f ts) := by
  have hopen (o : Token) (ho : o.kind = .openParen) : nesting 0 o = 1 := by rw [nesting, ho]
  refine (nests_expect (by decide) hopen (by omega) (by omega) ts).bind fun a _ => ?_
  have hargs := nests_enclosed (nestsItem_expression maxDepth)
    (show Complaint.unclosedCommand ≠ .tooDeep by decide) (.inl rfl) 0 a.2
  refine (hargs.mono (by omega) (by omega)).bind fun as _ => ?_
  exact .ok rfl (by omega)

theorem nests_assignment (target : Token) (ts : List Token) :
    Nests 0 maxDepth (maxDepth + 1) 0 ts (assignment target ts) := by
  by_cases hcall : StartsCall ts
  · obtain ⟨f, p, rest, rfl, hf, hp⟩ := hcall
    rw [assignment_call target hf hp]
    refine .cons f ?_ (by omega)
    rw [nesting, hf]
    exact nests_callStatement _ f (p :: rest)
  · rw [assignment_plain target hcall]
    refine ((nestsItem_expression maxDepth 0 ts).mono (by omega) (by omega)).bind fun e _ => ?_
    exact .ok rfl (by omega)

theorem nests_statement (ts : List Token) :
    Nests 0 maxDepth (maxDepth + 1) 0 ts (statement ts) := by
  rw [statement_eq]
  have hname (f : Token) (hf : f.kind = .identifier) : nesting 0 f = 0 := by rw [nesting, hf]
  refine (nests_expect (by decide) hname (by omega) (by omega) ts).bind fun a _ => ?_
  split
  · rename_i hequals
    obtain ⟨q, rest, hq, hkind⟩ := exists_cons_of_nextIs hequals
    change Nests _ _ _ _ a.2 _
    rw [hq]
    refine .cons q ?_ (by omega)
    rw [nesting, hkind]
    exact nests_assignment a.1 rest
  · exact nests_callStatement _ a.1 a.2

/-- All statements leave nothing. -/
instance : Leaves (List Statement) := ⟨fun _ => []⟩

/-- However many statements there are, each starts with no bracket open. -/
theorem nests_statements {fuel : Nat} {ts : List Token} (hfuel : ts.length ≤ fuel) :
    Nests 0 maxDepth (maxDepth + 1) 0 ts (statements fuel ts) := by
  induction fuel generalizing ts with
  | zero =>
    obtain rfl := List.length_eq_zero_iff.1 (Nat.le_zero.1 hfuel)
    exact .ok rfl (Nat.zero_le _)
  | succ fuel ih =>
    cases ts with
    | nil => exact .ok rfl (Nat.zero_le _)
    | cons t ts =>
      rw [statements]
      split
      · rename_i ht
        refine .cons t ?_ (Nat.zero_le _)
        rw [nesting_of_separates ht]
        exact ih (Nat.le_of_succ_le_succ hfuel)
      · refine (nests_statement (t :: ts)).bind fun p hp => ?_
        have hlt := rest_length_lt hp
        refine (ih (Nat.le_of_lt_succ (hlt.trans_le hfuel))).bind fun body _ => ?_
        exact .ok rfl (Nat.zero_le _)

end Parsing

open Grammar Parsing
open Token (unclosed nesting)

/-! ### Scripts -/

/-- Where the parser gives up on the depth, as many brackets are open as expressions may nest. -/
theorem maxDepth_le_unclosed {source : String} {e : SyntaxError}
    (h : Script.parse source = .error e) (hdeep : e.complaint = .tooDeep) :
    ∃ n, maxDepth ≤ unclosed ((Token.tokenize source).take n) := by
  obtain ⟨rest, -, hstuck, -⟩ := stuck_of_script ((parse_eq source).symm.trans h)
  obtain ⟨us, hts, -, hopen⟩ := nests_statements (Nat.le_refl (Token.scan source).1.length)
  rw [hstuck] at hts hopen
  refine ⟨us.length, ?_⟩
  have htokens : Token.tokenize source = us ++ (rest ++ [.final (Token.scan source).2]) := by
    rw [← List.append_assoc]
    exact congrArg (· ++ [_]) hts
  rw [htokens, List.take_left]
  exact hopen hdeep

/-- The parser does not take more brackets than it has room for. -/
theorem unclosed_le_of_starts {source : String}
    (h : ∀ e, Script.parse source = .error e → e.complaint ≠ .tooDeep) {n : Nat} {ws : List Token}
    {s : Script} (hs : IsScript ((Token.tokenize source).take n ++ ws) s) :
    unclosed ((Token.tokenize source).take n) ≤ maxDepth + 1 := by
  obtain ⟨us, hts, hus, -⟩ := nests_statements (Nat.le_refl (Token.scan source).1.length)
  cases hparse : Script.parse source with
  | ok s' =>
    -- All tokens are taken, and the final one is no bracket.
    rw [parse_eq] at hparse
    rw [statements_of_script hparse] at hts
    obtain rfl : us = (Token.scan source).1 := (hts.trans (List.append_nil us)).symm
    have htake : (Token.tokenize source).take n <+:
        (Token.scan source).1 ++ [.final (Token.scan source).2] := List.take_prefix n _
    obtain hall | hproper := List.prefix_concat_iff.1 htake
    · rw [hall, unclosed, List.foldl_concat]
      exact hus _ (List.prefix_refl _)
    · exact hus _ hproper
  | error e =>
    obtain ⟨rest, -, hstuck, -⟩ := stuck_of_script ((parse_eq source).symm.trans hparse)
    rw [hstuck] at hts
    have hts : (Token.scan source).1 = us ++ rest := hts
    have htokens : Token.tokenize source = us ++ (rest ++ [.final (Token.scan source).2]) := by
      rw [← List.append_assoc, ← hts]
      rfl
    by_cases hn : n ≤ us.length
    · refine hus _ ?_
      rw [htokens, List.take_append_of_le_length hn]
      exact List.take_prefix n us
    · -- With the offending token there would be no script.
      have hproper : ∀ t ∈ us ++ rest, t.kind ≠ .ending := by
        rw [← hts]
        exact fun t ht => Token.kind_ne_ending ht
      have hnumerals : Numerals (us ++ rest) := by
        rw [← hts]
        exact (numerals_tokenize source).mono (List.subset_append_left _ _)
      have htake : us ++ (rest ++ [Token.final (Token.scan source).2]).take 1 <+:
          (Token.tokenize source).take n := by
        rw [htokens, ← List.take_length_add_append]
        exact List.take_prefix_take_left (by omega)
      rw [hts] at hstuck
      exact absurd ((htake.trans (List.prefix_append _ ws)).map Token.kind)
        (not_isScript_of_stuck hstuck (h e hparse) hproper hnumerals hs)

/-- The complaint about the depth is told from all others by its words. -/
theorem Complaint.detail_eq_iff (c : Complaint) :
    c.detail = "Expression nested too deeply" ↔ c = .tooDeep := by
  -- The two complaints that quote a token start with other words.
  have hother {start : String} (hstart : ¬ start.toList <+: "Expression nested too deeply".toList)
      (rest : String) : start ++ rest ≠ "Expression nested too deeply" := by
    intro heq
    rw [← heq, String.toList_append] at hstart
    exact hstart (List.prefix_append _ _)
  refine ⟨fun h => ?_, fun h => by rw [h]; rfl⟩
  cases c with
  | tooDeep => rfl
  | unexpected kind text =>
    have hdetail : (unexpected kind text).detail =
        "Unexpected token: " ++ kind.label ++ " (value: '" ++ text ++ "')" := rfl
    simp only [hdetail, String.append_assoc] at h
    exact absurd h (hother (by decide +kernel) _)
  | notANumber text => exact absurd h (hother (by decide +kernel) _)
  | _ => exact absurd h (by decide)

/-- **Nesting is too deep, and length never is.**

A script of any length in which at most 150 brackets are ever open at once is not refused for its
depth.  A script is refused for its depth if its first tokens start some script of the grammar and
leave more than 3000 brackets open, whatever follows them. -/
theorem too_deep_by_nesting (source : String) :
    ((∀ n, unclosed ((Token.tokenize source).take n) ≤ 150) →
      ∀ e, Script.parse source = .error e →
        e.complaint.detail ≠ "Expression nested too deeply") ∧
    ((∃ n ws s, IsScript ((Token.tokenize source).take n ++ ws) s ∧
        3000 < unclosed ((Token.tokenize source).take n)) →
      ∃ e, Script.parse source = .error e ∧
        e.complaint.detail = "Expression nested too deeply") := by
  refine ⟨fun hflat e he hdetail => ?_, ?_⟩
  · obtain ⟨n, hn⟩ := maxDepth_le_unclosed he ((Complaint.detail_eq_iff _).1 hdetail)
    exact absurd (hn.trans (hflat n)) (by decide)
  · rintro ⟨n, ws, s, hs, hdeep⟩
    by_contra hnone
    have hshallow : ∀ e, Script.parse source = .error e → e.complaint ≠ .tooDeep :=
      fun e he htoo => hnone ⟨e, he, (Complaint.detail_eq_iff _).2 htoo⟩
    exact absurd (hdeep.trans_le (unclosed_le_of_starts hshallow hs)) (by decide)

theorem unclosed_le_length (ts : List Token) : unclosed ts ≤ ts.length := by
  have hle : ∀ (ts : List Token) (depth : Nat), ts.foldl nesting depth ≤ depth + ts.length := by
    intro ts
    induction ts with
    | nil => exact fun depth => Nat.le_refl _
    | cons t ts ih =>
      intro depth
      have hstep : nesting depth t ≤ depth + 1 := by
        rw [nesting]
        split <;> omega
      rw [List.foldl_cons, List.length_cons]
      exact (ih _).trans (by omega)
  exact (hle ts 0).trans_eq (Nat.zero_add _)

/-- Any number of groups can be closed again. -/
theorem exists_isScript_of_groups {f q : Token} {os : List Token} (hf : f.kind = .identifier)
    (hq : q.kind = .equals) (hos : ∀ o ∈ os, o.kind = .openParen) :
    ∃ ws s, IsScript (f :: q :: os ++ ws) s := by
  obtain ⟨ws, e, he⟩ : ∃ ws, IsExpression (os ++ ws) := by
    induction os with
    | nil => exact ⟨_, isExpression_sample⟩
    | cons o os ih =>
      rw [List.forall_mem_cons] at hos
      obtain ⟨ws, e, he⟩ := ih hos.2
      refine ⟨ws ++ [sample .closeParen], e, ?_⟩
      rw [List.cons_append, ← List.append_assoc]
      exact .group hos.1 he rfl
  obtain ⟨s, hs⟩ := he.exists_isStatement hf hq
  have hnone : Separators [] := by simp [Separators]
  have hscript := IsScript.intro hnone (.cons hs hnone .nil)
    (rfl : (Token.final .origin).kind = .ending)
  have htokens : [] ++ (f :: q :: (os ++ ws) ++ ([] ++ [])) ++ [Token.final .origin] =
      f :: q :: os ++ (ws ++ [.final .origin]) := by simp
  rw [htokens] at hscript
  exact ⟨_, _, hscript⟩

theorem foldl_nesting_openParen {os : List Token} (h : ∀ o ∈ os, o.kind = .openParen)
    (depth : Nat) : os.foldl nesting depth = depth + os.length := by
  induction os generalizing depth with
  | nil => rfl
  | cons o os ih =>
    rw [List.forall_mem_cons] at h
    have ho : nesting depth o = depth + 1 := by rw [nesting, h.1]
    rw [List.foldl_cons, ho, ih h.2, List.length_cons]
    omega

/-- An assignment with `n` groups, of which none is closed. -/
def openGroups (n : Nat) : String := String.ofList ('A' :: '=' :: List.replicate n '(')

theorem exists_scan_openGroups (n : Nat) :
    ∃ f q os, (Token.scan (openGroups n)).1 = f :: q :: os ∧ f.kind = .identifier ∧
      q.kind = .equals ∧ os.length = n ∧ ∀ o ∈ os, o.kind = .openParen := by
  have hrun : ∀ (n : Nat) (p : Position),
      (Token.run n ⟨List.replicate n '(', p⟩).1.length = n ∧
        ∀ o ∈ (Token.run n ⟨List.replicate n '(', p⟩).1, o.kind = .openParen := by
    intro n
    induction n with
    | zero => exact fun p => ⟨rfl, by simp [Token.run]⟩
    | succ n ih =>
      intro p
      obtain ⟨hlength, hkind⟩ := ih (p.right 1)
      exact ⟨congrArg (· + 1) hlength, List.forall_mem_cons.2 ⟨rfl, hkind⟩⟩
  refine ⟨⟨.identifier, "A", .origin⟩, ⟨.equals, "=", ⟨1, 2⟩⟩, _, ?_, rfl, rfl, hrun n ⟨1, 3⟩⟩
  rw [Token.scan, Cursor.ofSource, openGroups, String.length_ofList, String.toList_ofList,
    List.length_cons, List.length_cons, List.length_replicate]
  rfl

theorem exists_unclosed_openGroups (n : Nat) :
    ∃ k ws s, IsScript ((Token.tokenize (openGroups n)).take k ++ ws) s ∧
      unclosed ((Token.tokenize (openGroups n)).take k) = n := by
  obtain ⟨f, q, os, hscan, hf, hq, hlength, hos⟩ := exists_scan_openGroups n
  have htake : (Token.tokenize (openGroups n)).take (f :: q :: os).length = f :: q :: os := by
    rw [← hscan]
    exact List.take_left
  have hunclosed : unclosed (f :: q :: os) = n := by
    have htarget : nesting 0 f = 0 := by rw [nesting, hf]
    have hequals : nesting 0 q = 0 := by rw [nesting, hq]
    rw [unclosed, List.foldl_cons, List.foldl_cons, htarget, hequals,
      foldl_nesting_openParen hos, hlength, Nat.zero_add]
  obtain ⟨ws, s, hs⟩ := exists_isScript_of_groups hf hq hos
  exact ⟨(f :: q :: os).length, ws, s, htake.symm ▸ hs, htake.symm ▸ hunclosed⟩

/-- A short script is not too deep, and an assignment with 3001 open groups is. -/
theorem too_deep_by_nesting_open_groups :
    ((∀ n, unclosed ((Token.tokenize "A=((1))").take n) ≤ 150) ∧
      ∀ e, Script.parse "A=((1))" = .error e →
        e.complaint.detail ≠ "Expression nested too deeply") ∧
    (∃ n ws s, IsScript ((Token.tokenize (openGroups 3001)).take n ++ ws) s ∧
      3000 < unclosed ((Token.tokenize (openGroups 3001)).take n)) ∧
    ∃ e, Script.parse (openGroups 3001) = .error e ∧
      e.complaint.detail = "Expression nested too deeply" := by
  have hflat (n : Nat) : unclosed ((Token.tokenize "A=((1))").take n) ≤ 150 := by
    have hlength : (Token.tokenize "A=((1))").length = 8 := by decide +kernel
    have htake := List.length_take_le' n (Token.tokenize "A=((1))")
    exact (unclosed_le_length _).trans (by omega)
  have hnested : ∃ n ws s, IsScript ((Token.tokenize (openGroups 3001)).take n ++ ws) s ∧
      3000 < unclosed ((Token.tokenize (openGroups 3001)).take n) := by
    obtain ⟨n, ws, s, hs, hunclosed⟩ := exists_unclosed_openGroups 3001
    exact ⟨n, ws, s, hs, by omega⟩
  exact ⟨⟨hflat, (too_deep_by_nesting "A=((1))").1 hflat⟩, hnested,
    (too_deep_by_nesting (openGroups 3001)).2 hnested⟩

end GeoLint
