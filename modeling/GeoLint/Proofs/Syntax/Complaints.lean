import GeoLint.Proofs.Syntax.Depth
import GeoLint.Proofs.Text.Lines

/-!
# What the parser complains about

Behind an opening bracket, a comma or an equals sign the parser looks for an expression
(`Kind.awaits`).  Where one is due it complains about what stands there instead, and quotes it
(`Refuses`); where none is due it asks for a certain token and quotes nothing (`Complaint.asks`).

Every function of the parser gets one specification, `Explained before ts P r`: with or without an
expression due in front of the tokens `ts`, a complaint is of the sort that is right behind the
tokens taken, and `P` says whether an expression is due behind a result.  `explained_of_parse` says
it of scripts.

A token that is quoted is a single character, and only one such character ends a line.  So the error
in words is on one line exactly if the parser does not stop at the end of a line where an expression
is due (`stopsAtLineEnd`, `oneLine_message_iff`).
-/

namespace GeoLint

namespace Token

/-- An expression is looked for behind a token of this kind. -/
def Kind.awaits : Kind → Bool
  | .openParen | .openBrace | .comma | .equals => true
  | _ => false

/-- An expression is due behind the tokens; `before` says whether one is due in front of them. -/
def due (before : Bool) (ts : List Token) : Bool :=
  ts.foldl (fun _ t => t.kind.awaits) before

theorem due_append (before : Bool) (ts us : List Token) :
    due before (ts ++ us) = due (due before ts) us :=
  List.foldl_append

end Token

/-- The complaint asks for a certain token. -/
def Complaint.asks : Complaint → Bool
  | .expectedName | .expectedArguments | .unclosedCommand | .unclosedCall | .unclosedList
  | .unclosedGroup => true
  | _ => false

namespace Parsing

open Token (Kind due)
open Grammar

/-- The complaint about tokens where an expression is due: none are left, the first spells no
number, or it starts no expression. -/
inductive Refuses : List Token → Complaint → Prop
  /-- The script has ended. -/
  | ended : Refuses [] (.unexpected .ending "")
  /-- A number without a value. -/
  | number {t : Token} {ts : List Token} (h : t.kind = .number)
    (hnone : numberValue? t.text = none) : Refuses (t :: ts) (.notANumber t.text)
  /-- A token that starts no expression. -/
  | other {t : Token} {ts : List Token} (h : opens t.kind = false) :
    Refuses (t :: ts) (.unexpected t.kind t.text)

/-- What the parser is stuck at explains the complaint, unless that is about the depth. -/
def Stuck.Explains (stuck : Stuck) (due : Bool) : Prop :=
  stuck.complaint = .tooDeep ∨
    if due then Refuses stuck.rest stuck.complaint else stuck.complaint.asks = true

/-- Behind the tokens that are taken for the answer `r` stands what explains a complaint, and with a
result an expression is due there or not as `P` says. -/
def Explained {α : Type} [Leaves α] (before : Bool) (ts : List Token) (P : Bool → α → Prop)
    (r : Except Stuck α) : Prop :=
  ∃ us, ts = us ++ left r ∧
    match r with
    | .ok a => P (due before us) a
    | .error stuck => stuck.Explains (due before us)

namespace Explained

variable {α β : Type} [Leaves α] [Leaves β] {before : Bool} {ts : List Token}
variable {P : Bool → α → Prop} {Q : Bool → β → Prop}

/-- Nothing is taken. -/
theorem ok {a : α} (h : Leaves.rest a = ts) (hP : P before a) :
    Explained before ts P (.ok a : Except Stuck α) :=
  ⟨[], h.symm, hP⟩

/-- A complaint about the first token. -/
theorem error {complaint : Complaint} (h : Stuck.Explains ⟨complaint, ts⟩ before) :
    Explained before ts P (.error ⟨complaint, ts⟩ : Except Stuck α) :=
  ⟨[], rfl, h⟩

/-- One token is taken before. -/
theorem cons {r : Except Stuck α} (t : Token) (h : Explained t.kind.awaits ts P r) :
    Explained before (t :: ts) P r := by
  obtain ⟨us, rfl, hr⟩ := h
  exact ⟨t :: us, rfl, hr⟩

theorem bind {r : Except Stuck α} {k : α → Except Stuck β} (h : Explained before ts P r)
    (hk : ∀ a b, P b a → Explained b (Leaves.rest a) Q (k a)) :
    Explained before ts Q (r >>= k) := by
  obtain ⟨us, hts, hr⟩ := h
  cases r with
  | error stuck => exact ⟨us, hts, hr⟩
  | ok a =>
    obtain ⟨ws, hrest, hka⟩ := hk a _ hr
    refine ⟨us ++ ws, ?_, ?_⟩
    · rw [hts, List.append_assoc]
      exact congrArg (us ++ ·) hrest
    · rw [Token.due_append]
      exact hka

end Explained

/-- A certain token is asked for where no expression is due, or where it stands. -/
theorem explained_expect {kind : Kind} {complaint : Complaint} (hasks : complaint.asks = true)
    {before : Bool} {ts : List Token} (h : before = false ∨ nextIs kind ts = true) :
    Explained before ts (fun b _ => b = kind.awaits) (expect kind complaint ts) := by
  cases hnext : nextIs kind ts with
  | false =>
    obtain rfl := h.resolve_right (by simp [hnext])
    rw [expect_of_not hnext]
    exact .error (.inr hasks)
  | true =>
    obtain ⟨t, us, rfl, ht⟩ := exists_cons_of_nextIs hnext
    rw [expect_of_kind ht]
    exact .cons t (.ok rfl (by rw [ht]))

/-! ### Expressions -/

/-- Where an expression is due and found, none is due behind it. -/
def ExplainsItem (item : List Token → Except Stuck (Parsed Expr)) : Prop :=
  ∀ ts, Explained true ts (fun b _ => b = false) (item ts)

section Sequences

variable {item : List Token → Except Stuck (Parsed Expr)}
variable (hsound : Sound item) (hitem : ExplainsItem item)

include hitem

/-- An expression is still due behind a sequence only after a trailing comma. -/
theorem explained_more (trailing : Bool) (fuel : Nat) (ts : List Token) :
    Explained false ts
      (fun b a => b = false ∨ trailing = true ∧ nextIs .closeParen a.2 = true)
      (more item trailing fuel ts) := by
  induction fuel generalizing ts with
  | zero => exact .ok rfl (.inl rfl)
  | succ fuel ih =>
    cases ts with
    | nil => exact .ok rfl (.inl rfl)
    | cons k ts =>
      rw [more]
      by_cases hk : k.kind = .comma
      · rw [if_pos hk]
        refine .cons k ?_
        rw [hk]
        split
        · rename_i htrailing
          exact .ok rfl (.inr (Bool.and_eq_true_iff.1 htrailing))
        · refine (hitem ts).bind fun p b hb => ?_
          subst hb
          exact (ih p.rest).bind fun a b hb => .ok rfl hb
      · rw [if_neg hk]
        exact .ok rfl (.inl rfl)

/-- Arguments and what closes them, behind their opening bracket. -/
theorem explained_enclosed {close : Kind} {complaint : Complaint} (hclose : close.awaits = false)
    (hasks : complaint.asks = true) (ts : List Token) :
    Explained true ts (fun b _ => b = false) (enclosed item close complaint ts) := by
  have hitems : Explained true ts (fun b a => b = false ∨ nextIs close a.2 = true)
      (items item close ts) := by
    rw [items]
    split
    · rename_i hnext
      exact .ok rfl (.inr hnext)
    · refine (hitem ts).bind fun p b hb => ?_
      subst hb
      refine (explained_more hitem false _ p.rest).bind fun a b hb => .ok rfl (.inl ?_)
      simpa using hb
  rw [enclosed_eq]
  refine hitems.bind fun a b hb => ?_
  exact (explained_expect hasks hb).bind fun c b hb => .ok rfl (hb.trans hclose)

theorem explained_nameOrCall (f : Token) (ts : List Token) :
    Explained false ts (fun b _ => b = false) (nameOrCall item f ts) := by
  cases hparen : nextIs .openParen ts with
  | false =>
    rw [nameOrCall_eq_ok hparen]
    exact .ok rfl rfl
  | true =>
    obtain ⟨p, us, rfl, hp⟩ := exists_cons_of_nextIs hparen
    rw [nameOrCall, if_pos hp]
    refine .cons p ?_
    rw [hp]
    exact (explained_enclosed hitem rfl rfl us).bind fun as b hb => .ok rfl hb

include hsound

theorem explained_group (start : Position) (ts : List Token) :
    Explained true ts (fun b _ => b = false) (group item start ts) := by
  cases hnext : nextIs .closeParen ts with
  | true =>
    obtain ⟨c, us, rfl, hc⟩ := exists_cons_of_nextIs hnext
    rw [group, if_pos hc]
    exact .cons c (.ok rfl (by rw [hc]; rfl))
  | false =>
    rw [group_of_not hsound start hnext]
    refine (hitem ts).bind fun p b hb => ?_
    subst hb
    split
    · refine (explained_more hitem true _ p.rest).bind fun a b hb => ?_
      exact (explained_expect rfl (hb.imp_right And.right)).bind fun c b hb => .ok rfl hb
    · exact (explained_expect rfl (.inl rfl)).bind fun c b hb => .ok rfl hb

theorem explained_starting (t : Token) (ts : List Token) :
    Explained true (t :: ts) (fun b _ => b = false) (starting item t ts) := by
  rw [starting]
  split
  case h_1 ht =>
    split
    · exact .cons t (.ok rfl (by rw [ht]; rfl))
    · exact .error (.inr (.number ht ‹_›))
  case h_2 ht | h_3 ht => exact .cons t (.ok rfl (by rw [ht]; rfl))
  case h_4 ht =>
    refine .cons t ?_
    rw [ht]
    exact (explained_enclosed hitem rfl rfl ts).bind fun es b hb => .ok rfl hb
  case h_5 ht =>
    refine .cons t ?_
    rw [ht]
    exact explained_group hsound hitem t.position ts
  case h_6 ht =>
    refine .cons t ?_
    rw [ht]
    exact explained_nameOrCall hitem t ts
  case h_7 =>
    refine .error (.inr (.other ?_))
    cases hkind : t.kind <;> simp_all [opens]

end Sequences

theorem explainsItem_expression (depth : Nat) : ExplainsItem (expression depth) := by
  induction depth with
  | zero => exact fun ts => .error (.inl rfl)
  | succ depth ih =>
    rintro (_ | ⟨t, ts⟩)
    · exact .error (.inr .ended)
    · exact explained_starting (sound_expression depth) ih t ts

/-! ### Statements -/

theorem explained_callStatement (start : Position) (f : Token) (ts : List Token) :
    Explained false ts (fun b _ => b = false) (callStatement start f ts) := by
  refine (explained_expect rfl (.inl rfl)).bind fun a b hb => ?_
  subst hb
  exact (explained_enclosed (explainsItem_expression maxDepth) rfl rfl a.2).bind
    fun as b hb => .ok rfl hb

theorem explained_assignment (target : Token) (ts : List Token) :
    Explained true ts (fun b _ => b = false) (assignment target ts) := by
  by_cases hcall : StartsCall ts
  · obtain ⟨f, p, rest, rfl, hf, hp⟩ := hcall
    rw [assignment_call target hf hp]
    refine .cons f ?_
    rw [hf]
    exact explained_callStatement _ f (p :: rest)
  · rw [assignment_plain target hcall]
    exact (explainsItem_expression maxDepth ts).bind fun e b hb => .ok rfl hb

theorem explained_statement (ts : List Token) :
    Explained false ts (fun b _ => b = false) (statement ts) := by
  rw [statement_eq]
  refine (explained_expect rfl (.inl rfl)).bind fun a b hb => ?_
  subst hb
  split
  · rename_i hequals
    obtain ⟨q, rest, hq, hkind⟩ := exists_cons_of_nextIs hequals
    change Explained _ a.2 _ _
    rw [hq]
    refine .cons q ?_
    rw [hkind]
    exact explained_assignment a.1 rest
  · exact explained_callStatement _ a.1 a.2

theorem awaits_of_separates {kind : Kind} (h : kind.separates = true) : kind.awaits = false := by
  rw [Kind.separates, Bool.or_eq_true, decide_eq_true_eq, decide_eq_true_eq] at h
  rcases h with rfl | rfl <;> rfl

/-- No expression is due where a statement starts. -/
theorem explained_statements (fuel : Nat) (ts : List Token) :
    Explained false ts (fun _ _ => True) (statements fuel ts) := by
  have hall (body : List Statement) (us : List Token) :
      Explained false us (fun _ _ => True) (.ok body : Except Stuck (List Statement)) :=
    ⟨us, (List.append_nil us).symm, trivial⟩
  induction fuel generalizing ts with
  | zero => exact hall [] ts
  | succ fuel ih =>
    cases ts with
    | nil => exact hall [] []
    | cons t ts =>
      rw [statements]
      split
      · rename_i ht
        refine .cons t ?_
        rw [awaits_of_separates ht]
        exact ih ts
      · refine (explained_statement (t :: ts)).bind fun p b hb => ?_
        subst hb
        refine (ih p.rest).bind fun body b _ => ?_
        exact ⟨[], rfl, trivial⟩

end Parsing

open Parsing

/-- **What stands at the offending token explains the complaint.** -/
theorem explained_of_parse {source : String} {e : SyntaxError}
    (h : Script.parse source = .error e) :
    ∃ us rest, (Token.scan source).1 = us ++ rest ∧ e.offender = us.length ∧
      Stuck.Explains ⟨e.complaint, rest⟩ (Token.due false us) := by
  obtain ⟨rest, -, hstuck, -, hoffender, -⟩ := stuck_of_script ((parse_eq source).symm.trans h)
  obtain ⟨us, hts, hexplains⟩ := explained_statements (Token.scan source).1.length
    (Token.scan source).1
  rw [hstuck] at hts hexplains
  have hts : (Token.scan source).1 = us ++ rest := hts
  refine ⟨us, rest, hts, ?_, hexplains⟩
  rw [hoffender, hts, List.length_append, Nat.add_sub_cancel]

/-! ### Complaints in words -/

open Text (OneLine isLineBreak)

namespace Token

/-- The tokens of a script before its end come from calls, and are known. -/
theorem of_mem_scan {source : String} {t : Token} (h : t ∈ (scan source).1) :
    (∃ n, t = tokenAt source n) ∧ t.kind ≠ .ending ∧ t.kind ≠ .unknown := by
  obtain ⟨stop, -, hbefore, hrun⟩ := run_eq source.length (.ofSource source)
    (length_ofSource source).le
  rw [scan, hrun, List.mem_filter, List.mem_map] at h
  obtain ⟨⟨n, hn, rfl⟩, hknown⟩ := h
  exact ⟨⟨n, rfl⟩, hbefore n (List.mem_range.1 hn), of_decide_eq_true hknown⟩

/-- A token that starts no expression is a single character. -/
theorem exists_ofChar {source : String} {t : Token} (h : t ∈ (scan source).1)
    (hopens : Grammar.opens t.kind = false) :
    ∃ c, t.text = String.ofList [c] ∧ Kind.ofChar c = t.kind ∧ t.kind ≠ .unknown := by
  obtain ⟨⟨n, rfl⟩, hending, hunknown⟩ := of_mem_scan h
  obtain ⟨w, rest, hlexeme⟩ : ∃ w rest,
      IsLexeme (tokenAt source n).kind w (tokenAt source n).text.toList rest :=
    ⟨_, _, (takes (cursorAfter source n)).lexeme⟩
  generalize (tokenAt source n).kind = kind at *
  generalize htext : (tokenAt source n).text.toList = text at hlexeme
  cases hlexeme with
  | ending => exact absurd rfl hending
  | number | identifier | truth | closed | unclosed => cases hopens
  | @single c => exact ⟨c, by rw [← htext, String.ofList_toList], rfl, hunknown⟩

theorem eq_of_ofChar {c : Char} (h : Kind.ofChar c = .newline) : c = '\n' := by
  unfold Kind.ofChar at h
  split at h <;> first | rfl | cases h

theorem isLineBreak_of_ofChar {c : Char} (h : Kind.ofChar c ≠ .unknown) :
    isLineBreak c = true ↔ Kind.ofChar c = .newline := by
  unfold Kind.ofChar at h ⊢
  split at h <;> first | decide | exact absurd rfl h

/-- Of the tokens that start no expression, only a line end is not on one line. -/
theorem oneLine_text_iff {source : String} {t : Token} (h : t ∈ (scan source).1)
    (hopens : Grammar.opens t.kind = false) : OneLine t.text ↔ t.kind ≠ .newline := by
  obtain ⟨c, htext, hc, hknown⟩ := exists_ofChar h hopens
  rw [htext, Text.oneLine_ofList, List.forall_mem_singleton, ← hc, ne_eq,
    ← isLineBreak_of_ofChar (hc ▸ hknown), Bool.not_eq_true]

end Token

/-- A complaint is on one line if what it quotes is. -/
theorem Complaint.oneLine_detail_iff (complaint : Complaint) : OneLine complaint.detail ↔
    match complaint with
    | .unexpected _ text | .notANumber text => OneLine text
    | _ => True := by
  have hliterals : OneLine "Unexpected token: " ∧ OneLine " (value: '" ∧ OneLine "')" ∧
    OneLine "Not a number: " := by decide +kernel
  cases complaint with
  | unexpected kind text =>
    have hlabel : OneLine kind.label := by cases kind <;> decide +kernel
    change OneLine ("Unexpected token: " ++ kind.label ++ " (value: '" ++ text ++ "')") ↔ _
    simp only [Text.oneLine_append, hliterals, hlabel, true_and, and_true]
  | notANumber text =>
    change OneLine ("Not a number: " ++ text) ↔ _
    simp only [Text.oneLine_append, hliterals, true_and]
  | _ => exact iff_of_true (by decide +kernel) trivial

theorem SyntaxError.oneLine_message (e : SyntaxError) :
    OneLine e.message ↔ OneLine e.complaint.detail := by
  have hliterals : OneLine "Parse error at line " ∧ OneLine ", column " ∧ OneLine ": " := by
    decide +kernel
  change OneLine ("Parse error at line " ++ e.position.line.repr ++ ", column " ++
    e.position.column.repr ++ ": " ++ e.complaint.detail) ↔ _
  simp only [Text.oneLine_append, Text.oneLine_repr, hliterals, true_and]

/-- The parser stops at the end of a line, where an expression is due. -/
def stopsAtLineEnd (source : String) : Bool :=
  match Script.parse source with
  | .ok _ => false
  | .error e =>
    let tokens := (Token.scan source).1
    e.complaint ≠ .tooDeep && Token.due false (tokens.take e.offender) &&
      nextIs .newline (tokens.drop e.offender)

section StopsAtLineEnd

variable {source : String} {e : SyntaxError}

theorem oneLine_detail_of_asks {complaint : Complaint} (h : complaint.asks = true) :
    OneLine complaint.detail := by
  rw [complaint.oneLine_detail_iff]
  cases complaint with
  | unexpected | notANumber => cases h
  | _ => trivial

/-- What the parser refuses where an expression is due is on one line, unless it is a line end. -/
theorem Parsing.Refuses.cases {complaint : Complaint} {rest : List Token}
    (h : Refuses rest complaint) (hrest : rest ⊆ (Token.scan source).1) :
    nextIs .newline rest = true ∧ complaint = .unexpected .newline "\n" ∨
      nextIs .newline rest = false ∧ OneLine complaint.detail := by
  rw [complaint.oneLine_detail_iff]
  cases h with
  | ended => exact .inr ⟨rfl, by decide⟩
  | @number t ts ht hnone =>
    -- the scanner takes nothing for a number that has no value
    have hmem : t ∈ Token.tokenize source := List.mem_append_left _ (hrest List.mem_cons_self)
    obtain ⟨x, hx⟩ := numerals_tokenize source t hmem ht
    rw [hx] at hnone
    cases hnone
  | @other t ts hopens =>
    have hmem := hrest List.mem_cons_self
    by_cases hkind : t.kind = .newline
    · obtain ⟨c, htext, hc, -⟩ := Token.exists_ofChar hmem hopens
      obtain rfl := Token.eq_of_ofChar (hc.trans hkind)
      exact .inl ⟨decide_eq_true hkind, by rw [hkind, htext]⟩
    · exact .inr ⟨decide_eq_false hkind, (Token.oneLine_text_iff hmem hopens).2 hkind⟩

/-- A complaint is on one line, or it quotes the end of the line at which the parser stops. -/
theorem complaint_cases (h : Script.parse source = .error e) :
    stopsAtLineEnd source = true ∧ e.complaint = .unexpected .newline "\n" ∨
      stopsAtLineEnd source = false ∧ OneLine e.complaint.detail := by
  obtain ⟨us, rest, htokens, hoffender, hexplains⟩ := explained_of_parse h
  have hstops : stopsAtLineEnd source =
      (e.complaint ≠ .tooDeep && Token.due false us && nextIs .newline rest) := by
    simp only [stopsAtLineEnd, h, htokens, hoffender, List.take_left, List.drop_left]
  rw [hstops]
  rcases hexplains with hdeep | hexplains
  · have hdeep : e.complaint = .tooDeep := hdeep
    refine .inr ⟨by simp [hdeep], ?_⟩
    rw [hdeep, Complaint.oneLine_detail_iff]
    trivial
  cases hdue : Token.due false us with
  | false =>
    rw [hdue] at hexplains
    exact .inr ⟨by simp, oneLine_detail_of_asks hexplains⟩
  | true =>
    rw [hdue] at hexplains
    have hrefuses : Refuses rest e.complaint := hexplains
    have hrest : rest ⊆ (Token.scan source).1 := htokens ▸ List.subset_append_right us rest
    rcases hrefuses.cases hrest with ⟨hnext, hcomplaint⟩ | ⟨hnext, hdetail⟩
    · exact .inl ⟨by simp [hnext, hcomplaint], hcomplaint⟩
    · exact .inr ⟨by simp [hnext], hdetail⟩

/-- **The error in words is on one line** unless the parser stops at the end of a line. -/
theorem oneLine_message_iff (h : Script.parse source = .error e) :
    OneLine e.message ↔ stopsAtLineEnd source = false := by
  rw [e.oneLine_message]
  rcases complaint_cases h with ⟨hstops, hcomplaint⟩ | ⟨hstops, hdetail⟩
  · rw [hstops, hcomplaint, Complaint.oneLine_detail_iff]
    exact iff_of_false (by decide) (by simp)
  · exact iff_of_true hdetail hstops

end StopsAtLineEnd

end GeoLint
