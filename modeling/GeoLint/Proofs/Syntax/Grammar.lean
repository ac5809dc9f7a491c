import GeoLint.Syntax.Parser

/-!
# The grammar of scripts

    script      :=  separator* (statement separator*)* END
    statement   :=  NAME '=' NAME '(' arguments ')'  |  NAME '=' expression
                 |  NAME '(' arguments ')'
    arguments   :=  [expression (',' expression)*]
    expression  :=  NUMBER | STRING | BOOLEAN | list | group | NAME ['(' arguments ')']
    list        :=  '{' arguments '}'
    group       :=  '(' ')'  |  '(' expression ')'  |  '(' expression (',' expression)* [','] ')'

`Derives`, `IsStatement`, `IsBody` and `IsScript` are this grammar as relations between tokens and
trees, with one rule for each alternative.  They say which tree a derivation stands for: a group of
one expression is that expression, any other group is a tuple; the target of `P = Point(x)` is
dropped, and every other assignment is a statement named after its target.  They also say where
each piece of the tree stands: from the first of its tokens to the last.

The grammar knows tokens by their kinds alone.  Texts only go into the trees.
-/

namespace GeoLint

namespace Grammar

open Token (Kind)
open Parsing (nameOf)

/-- The number that a token's text stands for. -/
def numberOf (text : String) : Binary64 :=
  (Parsing.numberValue? text).getD .nan

/-- A piece of a script inside a statement, with its tree. -/
inductive Phrase where
  /-- An expression. -/
  | expression (e : Expr)
  /-- Expressions with commas between them, at least one. -/
  | sequence (es : List Expr)
  /-- Expressions with commas between them, if any. -/
  | arguments (es : List Expr)

/-- The tokens derive the phrase. -/
inductive Derives : List Token → Phrase → Prop
  /-- `NUMBER` -/
  | number {t : Token} (h : t.kind = .number) :
    Derives [t] (.expression (.number (numberOf t.text) (.point t.position)))
  /-- `STRING` -/
  | text {t : Token} (h : t.kind = .text) :
    Derives [t] (.expression (.text t.text (.point t.position)))
  /-- `BOOLEAN` -/
  | truth {t : Token} (h : t.kind = .truth) :
    Derives [t] (.expression (.truth (t.text = "true") (.point t.position)))
  /-- `NAME` -/
  | name {t : Token} (h : t.kind = .identifier) : Derives [t] (.expression (.name (nameOf t)))
  /-- `NAME '(' arguments ')'` -/
  | call {f p c : Token} {ts : List Token} {es : List Expr} (hf : f.kind = .identifier)
    (hp : p.kind = .openParen) (hts : Derives ts (.arguments es)) (hc : c.kind = .closeParen) :
    Derives (f :: p :: (ts ++ [c]))
      (.expression (.call (nameOf f) es ⟨f.position, c.position⟩))
  /-- `'{' arguments '}'` -/
  | list {o c : Token} {ts : List Token} {es : List Expr} (ho : o.kind = .openBrace)
    (hts : Derives ts (.arguments es)) (hc : c.kind = .closeBrace) :
    Derives (o :: (ts ++ [c])) (.expression (.list es ⟨o.position, c.position⟩))
  /-- `'(' ')'` -/
  | unit {o c : Token} (ho : o.kind = .openParen) (hc : c.kind = .closeParen) :
    Derives [o, c] (.expression (.tuple [] ⟨o.position, c.position⟩))
  /-- `'(' expression ')'` is the expression itself. -/
  | group {o c : Token} {ts : List Token} {e : Expr} (ho : o.kind = .openParen)
    (hts : Derives ts (.expression e)) (hc : c.kind = .closeParen) :
    Derives (o :: (ts ++ [c])) (.expression e)
  /-- `'(' expression (',' expression)* ')'` with two expressions or more. -/
  | tuple {o c : Token} {ts : List Token} {es : List Expr} (ho : o.kind = .openParen)
    (hts : Derives ts (.sequence es)) (hes : 2 ≤ es.length) (hc : c.kind = .closeParen) :
    Derives (o :: (ts ++ [c])) (.expression (.tuple es ⟨o.position, c.position⟩))
  /-- `'(' expression (',' expression)* ',' ')'` -/
  | trailing {o k c : Token} {ts : List Token} {es : List Expr} (ho : o.kind = .openParen)
    (hts : Derives ts (.sequence es)) (hk : k.kind = .comma) (hc : c.kind = .closeParen) :
    Derives (o :: (ts ++ [k, c])) (.expression (.tuple es ⟨o.position, c.position⟩))
  /-- `expression` -/
  | one {ts : List Token} {e : Expr} (hts : Derives ts (.expression e)) :
    Derives ts (.sequence [e])
  /-- `expression ',' expression (',' expression)*` -/
  | more {k : Token} {ts us : List Token} {e : Expr} {es : List Expr}
    (hts : Derives ts (.expression e)) (hk : k.kind = .comma) (hus : Derives us (.sequence es)) :
    Derives (ts ++ k :: us) (.sequence (e :: es))
  /-- No arguments. -/
  | empty : Derives [] (.arguments [])
  /-- Some arguments. -/
  | filled {ts : List Token} {es : List Expr} (hts : Derives ts (.sequence es)) :
    Derives ts (.arguments es)

/-- The tokens start with a name and an opening parenthesis, as of all expressions only a nested
command does. -/
def StartsCall (ts : List Token) : Prop :=
  ∃ f p rest, ts = f :: p :: rest ∧ f.kind = .identifier ∧ p.kind = .openParen

/-- The tokens are a statement. -/
inductive IsStatement : List Token → Statement → Prop
  /-- `NAME '(' arguments ')'` -/
  | call {f p c : Token} {ts : List Token} {es : List Expr} (hf : f.kind = .identifier)
    (hp : p.kind = .openParen) (hts : Derives ts (.arguments es)) (hc : c.kind = .closeParen) :
    IsStatement (f :: p :: (ts ++ [c])) ⟨nameOf f, es, ⟨f.position, c.position⟩⟩
  /-- `NAME '=' NAME '(' arguments ')'`, of which the target is dropped. -/
  | assignedCall {target q f p c : Token} {ts : List Token} {es : List Expr}
    (htarget : target.kind = .identifier) (hq : q.kind = .equals) (hf : f.kind = .identifier)
    (hp : p.kind = .openParen) (hts : Derives ts (.arguments es)) (hc : c.kind = .closeParen) :
    IsStatement (target :: q :: f :: p :: (ts ++ [c]))
      ⟨nameOf f, es, ⟨target.position, c.position⟩⟩
  /-- `NAME '=' expression` with any other expression. -/
  | assigned {target q last : Token} {ts : List Token} {e : Expr}
    (htarget : target.kind = .identifier) (hq : q.kind = .equals)
    (hts : Derives ts (.expression e)) (hcall : ¬ StartsCall ts) (hlast : ts.getLast? = some last) :
    IsStatement (target :: q :: ts) ⟨nameOf target, [e], ⟨target.position, last.position⟩⟩

/-- The tokens are separators. -/
def Separators (ts : List Token) : Prop := ∀ t ∈ ts, t.kind.separates = true

/-- The tokens are statements with separators behind each. -/
inductive IsBody : List Token → List Statement → Prop
  /-- No statement. -/
  | nil : IsBody [] []
  /-- A statement, separators, and more. -/
  | cons {ts us vs : List Token} {s : Statement} {ss : List Statement} (hs : IsStatement ts s)
    (hus : Separators us) (hvs : IsBody vs ss) : IsBody (ts ++ (us ++ vs)) (s :: ss)

/-- From the first token to the last, or where the script ends if there are none. -/
def extent (ts : List Token) (stop : Token) : Span :=
  ⟨(ts.head?.getD stop).position, (ts.getLast?.getD stop).position⟩

/-- The tokens are a script. -/
inductive IsScript : List Token → Script → Prop
  /-- `separator* (statement separator*)* END` -/
  | intro {us ts : List Token} {stop : Token} {body : List Statement} (hus : Separators us)
    (hts : IsBody ts body) (hstop : stop.kind = .ending) :
    IsScript ((us ++ ts) ++ [stop]) ⟨body, extent (us ++ ts) stop⟩

/-! ### How phrases start and end -/

/-- The kinds of token that an expression can start with. -/
def opens : Kind → Bool
  | .number | .text | .truth | .openBrace | .openParen | .identifier => true
  | _ => false

/-- The tokens start with one that an expression can start with. -/
def Opens (ts : List Token) : Prop :=
  ∃ t us, ts = t :: us ∧ opens t.kind = true

theorem Opens.append {ts : List Token} (h : Opens ts) (us : List Token) : Opens (ts ++ us) := by
  obtain ⟨t, vs, rfl, ht⟩ := h
  exact ⟨t, vs ++ us, rfl, ht⟩

theorem Derives.opens {ts : List Token} {p : Phrase} (h : Derives ts p)
    (hp : ∀ es, p ≠ .arguments es) : Opens ts := by
  induction h with
  | number h | text h | truth h | name h => exact ⟨_, _, rfl, by rw [h]; rfl⟩
  | call hf => exact ⟨_, _, rfl, by rw [hf]; rfl⟩
  | list ho | unit ho | group ho | tuple ho | trailing ho => exact ⟨_, _, rfl, by rw [ho]; rfl⟩
  | one _ ih => exact ih (by simp)
  | more _ _ _ ih =>
    exact (ih (by simp)).append _
  | empty => exact absurd rfl (hp [])
  | filled => exact absurd rfl (hp _)

theorem Derives.getLast?_isSome {ts : List Token} {e : Expr} (h : Derives ts (.expression e)) :
    ∃ last, ts.getLast? = some last := by
  obtain ⟨t, us, rfl, -⟩ := h.opens (by simp)
  exact ⟨_, List.getLast?_cons⟩

/-- The side condition on assignments leaves nothing out: what starts like a nested command is one,
and then the other alternative applies. -/
theorem Derives.exists_isStatement {target q : Token} {ts : List Token} {e : Expr}
    (htarget : target.kind = .identifier) (hq : q.kind = .equals)
    (h : Derives ts (.expression e)) : ∃ s, IsStatement (target :: q :: ts) s := by
  obtain ⟨last, hlast⟩ := h.getLast?_isSome
  by_cases hcall : StartsCall ts
  · obtain ⟨f, p, rest, hts, hf, -⟩ := hcall
    -- Of the rules for expressions only a call starts with two such tokens.
    cases h with
    | call hf hp hargs hc => exact ⟨_, .assignedCall htarget hq hf hp hargs hc⟩
    | number | text | truth | name => cases hts
    | list ho | unit ho | group ho | tuple ho | trailing ho =>
      obtain ⟨rfl, -⟩ := List.cons.inj hts
      exact absurd (ho.symm.trans hf) (by decide)
  · exact ⟨_, .assigned htarget hq h hcall hlast⟩

theorem Derives.length_pos {ts : List Token} {es : List Expr} (h : Derives ts (.sequence es)) :
    0 < es.length := by
  cases h <;> exact Nat.succ_pos _

theorem IsStatement.length_pos {ts : List Token} {s : Statement} (h : IsStatement ts s) :
    0 < ts.length := by
  cases h <;> exact Nat.succ_pos _

theorem getLast?_closed (o c : Token) (ts : List Token) :
    (o :: (ts ++ [c])).getLast? = some c := by
  rw [← List.cons_append, List.getLast?_concat]

/-- No phrase ends in a comma. -/
theorem Derives.getLast?_ne_comma {ts : List Token} {p : Phrase} (h : Derives ts p) {last : Token}
    (hlast : ts.getLast? = some last) : last.kind ≠ .comma := by
  induction h with
  | number h | text h | truth h | name h =>
    obtain rfl : _ = last := by simpa using hlast
    rw [h]; decide
  | @call f p c ts _ _ _ _ hc =>
    rw [← List.cons_append, getLast?_closed, Option.some.injEq] at hlast
    rw [← hlast, hc]; decide
  | list _ _ hc | group _ _ hc | tuple _ _ _ hc =>
    rw [getLast?_closed, Option.some.injEq] at hlast
    rw [← hlast, hc]; decide
  | unit _ hc =>
    obtain rfl : _ = last := by simpa using hlast
    rw [hc]; decide
  | @trailing o k c ts _ _ _ _ hc =>
    rw [List.append_cons, getLast?_closed, Option.some.injEq] at hlast
    rw [← hlast, hc]; decide
  | one _ ih => exact ih hlast
  | more _ _ hus _ ih =>
    obtain ⟨t, vs, rfl, -⟩ := hus.opens (by simp)
    refine ih ?_
    simpa using hlast
  | empty => simp at hlast
  | filled _ ih => exact ih hlast

end Grammar

end GeoLint
