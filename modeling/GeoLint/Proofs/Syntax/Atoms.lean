import GeoLint.Proofs.Syntax.Acceptance
import GeoLint.Proofs.Syntax.Kinds
import GeoLint.Proofs.Syntax.Spans

/-!
# Names and literals

The atoms of a script are its names, numbers, string literals and truth values.  Among the tokens
they are told by their kinds (`Token.atoms`), in the tree they are the leaves (`Node.atoms`).
`atoms_of_parse` says that these are the same, one by one and in order: a tree neither loses nor
repeats an atom, with the one exception that the target of `P = Point(x)` is not in it.

The exception can be told from the tokens as well.  An equals sign stands only behind the first name
of a statement, so a name with an equals sign, a name and an opening parenthesis behind it is such a
target (`Token.startsTarget`).
-/

namespace GeoLint

/-! ### Atoms of tokens and of trees -/

namespace Token

/-- The kinds of token that are atoms. -/
def Kind.isAtom : Kind → Bool
  | .identifier | .number | .text | .truth => true
  | _ => false

/-- The first token is the target of a command: `NAME '=' NAME '('`. -/
def startsTarget : List Token → Bool
  | t :: q :: f :: p :: _ =>
    t.kind = .identifier && q.kind = .equals && f.kind = .identifier && p.kind = .openParen
  | _ => false

/-- The atoms among the tokens, without the targets of commands. -/
def atoms : List Token → List Token
  | [] => []
  | t :: ts => if t.kind.isAtom && !startsTarget (t :: ts) then t :: atoms ts else atoms ts

end Token

namespace Node

/-- The node is a name, a number, a string literal or a truth value. -/
def isAtom : Node → Bool
  | .expr (.name _) | .expr (.number ..) | .expr (.text ..) | .expr (.truth ..) => true
  | _ => false

/-- The atoms of a tree, in the order of a walk through it. -/
def atoms (n : Node) : List Node := n.nodes.filter isAtom

theorem atoms_of_isAtom {n : Node} (h : n.isAtom = true) : n.atoms = [n] := by
  have hchildren : n.children = [] := by
    unfold isAtom at h
    split at h
    · rfl
    · rfl
    · rfl
    · rfl
    · cases h
  simp [atoms, nodes_eq n, hchildren, h]

theorem atoms_of_not_isAtom {n : Node} (h : n.isAtom = false) :
    n.atoms = n.children.flatMap atoms := by
  rw [atoms, nodes_eq, List.filter_cons_of_neg (by simp [h]), List.filter_flatMap]
  rfl

end Node

/-- The node is what the token stands for, at the place of the token. -/
inductive Spells : Token → Node → Prop
  /-- A name has the text of its token. -/
  | name {t : Token} (h : t.kind = .identifier) :
    Spells t (.expr (.name ⟨t.text, .point t.position⟩))
  /-- A number has the value that the text of its token spells. -/
  | number {t : Token} {x : Binary64} (h : t.kind = .number)
    (hx : Parsing.numberValue? t.text = some x) : Spells t (.expr (.number x (.point t.position)))
  /-- A string literal has the text of its token, which is the text it stands for. -/
  | text {t : Token} (h : t.kind = .text) : Spells t (.expr (.text t.text (.point t.position)))
  /-- A truth value says whether its token is `true`. -/
  | truth {t : Token} (h : t.kind = .truth) :
    Spells t (.expr (.truth (t.text = "true") (.point t.position)))

namespace Grammar

open Token (Kind)
open Parsing (Numerals nextIs nextIs_of_isBody not_startsCall_append)

/-- The nodes are what the tokens stand for, one by one. -/
abbrev SpellAll (ts : List Token) (ns : List Node) : Prop := List.Forall₂ Spells ts ns

/-! ### Phrases -/

/-- The atoms among tokens of which none is a target. -/
def atomsIn (ts : List Token) : List Token := ts.filter fun t => t.kind.isAtom

theorem atomsIn_append (ts us : List Token) : atomsIn (ts ++ us) = atomsIn ts ++ atomsIn us :=
  List.filter_append ..

theorem atomsIn_cons_atom {t : Token} (h : t.kind.isAtom = true) (ts : List Token) :
    atomsIn (t :: ts) = t :: atomsIn ts :=
  List.filter_cons_of_pos h

theorem atomsIn_cons {t : Token} (h : t.kind.isAtom = false) (ts : List Token) :
    atomsIn (t :: ts) = atomsIn ts :=
  List.filter_cons_of_neg (by simp [h])

theorem atomsIn_closed {o c : Token} (ho : o.kind.isAtom = false) (hc : c.kind.isAtom = false)
    (ts : List Token) : atomsIn (o :: (ts ++ [c])) = atomsIn ts := by
  rw [atomsIn_cons ho, atomsIn_append, atomsIn_cons hc]
  exact List.append_nil _

theorem spellAll_leaf {t : Token} {n : Node} (ht : t.kind.isAtom = true) (hn : n.isAtom = true)
    (h : Spells t n) : SpellAll (atomsIn [t]) ([n].flatMap Node.atoms) := by
  rw [atomsIn_cons_atom ht, List.flatMap_singleton, Node.atoms_of_isAtom hn]
  exact .cons h .nil

/-- The atoms of a node that is none are those below it. -/
theorem spellAll_node {ts : List Token} {n : Node} (hn : n.isAtom = false)
    (h : SpellAll ts (n.children.flatMap Node.atoms)) : SpellAll ts ([n].flatMap Node.atoms) := by
  rwa [List.flatMap_singleton, Node.atoms_of_not_isAtom hn]

/-- **The atoms of a phrase are those of its tokens.** -/
theorem Derives.spellAll {ts : List Token} {p : Phrase} (h : Derives ts p) (hts : Numerals ts) :
    SpellAll (atomsIn ts) (p.roots.flatMap Node.atoms) := by
  induction h with
  | @number t h =>
    obtain ⟨x, hx⟩ := hts t List.mem_cons_self h
    have hvalue : numberOf t.text = x := by rw [numberOf, hx]; rfl
    exact spellAll_leaf (by rw [h]; rfl) rfl (hvalue ▸ .number h hx)
  | text h => exact spellAll_leaf (by rw [h]; rfl) rfl (.text h)
  | truth h => exact spellAll_leaf (by rw [h]; rfl) rfl (.truth h)
  | name h => exact spellAll_leaf (by rw [h]; rfl) rfl (.name h)
  | @call f p c ts es hf hp _ hc ih =>
    have htokens : atomsIn (f :: p :: (ts ++ [c])) = f :: atomsIn ts := by
      rw [atomsIn_cons_atom (by rw [hf]; rfl), atomsIn_closed (by rw [hp]; rfl) (by rw [hc]; rfl)]
    rw [htokens]
    exact spellAll_node rfl (.cons (.name hf) (ih (hts.mono fun t ht => by simp [ht])))
  | @list o c ts es ho _ hc ih =>
    rw [atomsIn_closed (by rw [ho]; rfl) (by rw [hc]; rfl)]
    exact spellAll_node rfl (ih (hts.mono (by simp)))
  | unit ho hc =>
    rw [atomsIn_cons (by rw [ho]; rfl), atomsIn_cons (by rw [hc]; rfl)]
    exact .nil
  | @group o c ts e ho _ hc ih =>
    rw [atomsIn_closed (by rw [ho]; rfl) (by rw [hc]; rfl)]
    exact ih (hts.mono (by simp))
  | @tuple o c ts es ho _ _ hc ih =>
    rw [atomsIn_closed (by rw [ho]; rfl) (by rw [hc]; rfl)]
    exact spellAll_node rfl (ih (hts.mono (by simp)))
  | @trailing o k c ts es ho _ hk hc ih =>
    have htokens : atomsIn (ts ++ [k]) = atomsIn ts := by
      rw [atomsIn_append, atomsIn_cons (by rw [hk]; rfl)]
      exact List.append_nil _
    rw [List.append_cons, atomsIn_closed (by rw [ho]; rfl) (by rw [hc]; rfl), htokens]
    exact spellAll_node rfl (ih (hts.mono (by simp)))
  | one _ ih | filled _ ih => exact ih hts
  | @more k ts us e es _ hk _ ihe ih =>
    rw [atomsIn_append, atomsIn_cons (by rw [hk]; rfl)]
    refine List.rel_append (?_ : SpellAll _ (Node.expr e).atoms) (ih (hts.mono (by simp)))
    have hfirst := ihe (hts.mono (by simp))
    rwa [Phrase.roots, List.flatMap_singleton] at hfirst
  | empty => exact .nil

/-! ### Statements -/

theorem startsTarget_eq_false {ts : List Token} (h : nextIs .equals ts = false) (t : Token) :
    Token.startsTarget (t :: ts) = false := by
  cases ts with
  | nil => rfl
  | cons q ts =>
    have hq : q.kind ≠ .equals := of_decide_eq_false h
    unfold Token.startsTarget
    split
    · rename_i heq
      obtain ⟨-, rfl, -⟩ := heq
      simp [hq]
    · rfl

theorem startsTarget_of_not {ts : List Token} (h : ¬ StartsCall ts) (t q : Token) :
    Token.startsTarget (t :: q :: ts) = false := by
  unfold Token.startsTarget
  split
  · rename_i f p rest heq
    obtain ⟨-, -, rfl⟩ := heq
    rw [Bool.eq_false_iff]
    intro hstarts
    simp only [Bool.and_eq_true, decide_eq_true_eq] at hstarts
    exact h ⟨f, p, rest, rfl, hstarts.1.2, hstarts.2⟩
  · rfl

/-- Where no equals sign stands, none of the names is a target. -/
theorem atoms_append {ts : List Token} (hts : ∀ t ∈ ts, t.kind ≠ .equals) {rest : List Token}
    (hrest : nextIs .equals rest = false) :
    Token.atoms (ts ++ rest) = atomsIn ts ++ Token.atoms rest := by
  induction ts with
  | nil => rfl
  | cons t ts ih =>
    have hnext : nextIs .equals (ts ++ rest) = false := by
      cases ts with
      | nil => exact hrest
      | cons u ts => exact decide_eq_false (hts u (by simp))
    have hatoms := ih fun u hu => hts u (List.mem_cons_of_mem _ hu)
    rw [List.cons_append, Token.atoms, startsTarget_eq_false hnext, hatoms]
    by_cases ht : t.kind.isAtom = true
    · rw [atomsIn_cons_atom ht]
      simp [ht]
    · rw [Bool.not_eq_true] at ht
      rw [atomsIn_cons ht]
      simp [ht]

theorem Derives.ne_equals {ts : List Token} {p : Phrase} (h : Derives ts p) :
    ∀ t ∈ ts, t.kind ≠ .equals := by
  intro t ht hkind
  have hinner := h.isInner_kind t ht
  rw [hkind] at hinner
  cases hinner

/-- The atoms of a statement are those of its tokens, if what follows could not go on with it. -/
theorem IsStatement.spellAll {ts : List Token} {s : Statement} (h : IsStatement ts s)
    (hts : Numerals ts) {rest : List Token} (hequals : nextIs .equals rest = false)
    (hparen : nextIs .openParen rest = false) :
    ∃ us, Token.atoms (ts ++ rest) = us ++ Token.atoms rest ∧
      SpellAll us (Node.statement s).atoms := by
  rw [Node.atoms_of_not_isAtom rfl]
  -- The name and the arguments of a command, with or without a target in front of them.
  have hcommand {f p c : Token} {us : List Token} {es : List Expr} (hf : f.kind = .identifier)
      (hp : p.kind = .openParen) (hus : Derives us (.arguments es)) (hc : c.kind = .closeParen)
      (hnumerals : Numerals us) :
      Token.atoms (f :: p :: (us ++ [c]) ++ rest) = f :: atomsIn us ++ Token.atoms rest ∧
        SpellAll (f :: atomsIn us)
          ((Node.name (Parsing.nameOf f) :: es.map .expr).flatMap Node.atoms) := by
    refine ⟨?_, .cons (.name hf) (hus.spellAll hnumerals)⟩
    rw [atoms_append (Derives.call hf hp hus hc).ne_equals hequals,
      atomsIn_cons_atom (by rw [hf]; rfl), atomsIn_closed (by rw [hp]; rfl) (by rw [hc]; rfl)]
  cases h with
  | @call f p c us es hf hp hus hc =>
    exact ⟨_, hcommand hf hp hus hc (hts.mono fun t ht => by simp [ht])⟩
  | @assignedCall target q f p c us es htarget hq hf hp hus hc =>
    obtain ⟨hatoms, hspell⟩ := hcommand hf hp hus hc (hts.mono fun t ht => by simp [ht])
    refine ⟨_, ?_, hspell⟩
    rw [← hatoms]
    simp [Token.atoms, Token.startsTarget, htarget, hq, hf, hp, Kind.isAtom]
  | @assigned target q last us e htarget hq hus hcall =>
    have hnumerals : Numerals us := hts.mono fun t ht => by simp [ht]
    refine ⟨target :: atomsIn us, ?_, .cons (.name htarget) (hus.spellAll hnumerals)⟩
    have hstarts := startsTarget_of_not (not_startsCall_append hcall hus hparen) target q
    simp [Token.atoms, hstarts, htarget, hq, Kind.isAtom, atoms_append hus.ne_equals hequals]

/-! ### Scripts -/

theorem nextIs_append_eq_false {kind : Kind} {ts us : List Token} (hts : nextIs kind ts = false)
    (hus : nextIs kind us = false) : nextIs kind (ts ++ us) = false := by
  cases ts with
  | nil => exact hus
  | cons t ts => exact hts

theorem Separators.atoms_append {us : List Token} (h : Separators us) (rest : List Token) :
    Token.atoms (us ++ rest) = Token.atoms rest := by
  induction us with
  | nil => rfl
  | cons t us ih =>
    have ht : t.kind.isAtom = false := by
      have hseparates := h t List.mem_cons_self
      simp only [Kind.separates, Bool.or_eq_true, decide_eq_true_eq] at hseparates
      rcases hseparates with hkind | hkind <;> rw [hkind] <;> rfl
    simp [Token.atoms, ht, ih fun t ht => h t (List.mem_cons_of_mem _ ht)]

theorem IsBody.spellAll {ts : List Token} {body : List Statement} (h : IsBody ts body)
    (hts : Numerals ts) {stop : Token} (hstop : stop.kind = .ending) :
    SpellAll (Token.atoms (ts ++ [stop])) ((body.map Node.statement).flatMap Node.atoms) := by
  induction h with
  | nil =>
    simp [Token.atoms, hstop, Kind.isAtom]
  | @cons ts us vs s ss hs hus hvs ih =>
    have hbehind {kind : Kind} (hname : kind ≠ .identifier) (hkind : kind.separates = false)
        (hending : kind ≠ .ending) : nextIs kind (us ++ vs ++ [stop]) = false :=
      nextIs_append_eq_false (nextIs_of_isBody hus hvs hname hkind)
        (decide_eq_false fun h => hending (h.symm.trans hstop))
    obtain ⟨as, has, hspell⟩ := hs.spellAll (hts.mono (by simp))
      (hbehind (by decide) rfl (by decide)) (hbehind (by decide) rfl (by decide))
    rw [List.append_assoc, has, List.append_assoc, hus.atoms_append]
    exact List.rel_append hspell (ih (hts.mono fun t ht => by simp [ht]))

theorem IsScript.spellAll {ts : List Token} {s : Script} (h : IsScript ts s) (hts : Numerals ts) :
    SpellAll (Token.atoms ts) (Node.script s).atoms := by
  rw [Node.atoms_of_not_isAtom rfl]
  cases h with
  | @intro us vs stop body hus hvs hstop =>
    rw [List.append_assoc, hus.atoms_append]
    exact hvs.spellAll (hts.mono fun t ht => by simp [ht]) hstop

end Grammar

open Grammar

/-- **A tree has the names and literals of its script**, no more and no fewer.

The names, numbers, string literals and truth values met on a walk through the tree are, one by one
and in order, what the tokens of these kinds stand for, each at the place of its token.  Only the
targets of commands are not in the tree. -/
theorem atoms_of_parse {source : String} {s : Script} (h : Script.parse source = .ok s) :
    List.Forall₂ Spells (Token.atoms (Token.tokenize source))
      ((Node.script s).nodes.filter Node.isAtom) :=
  (isScript_of_parse h).spellAll (numerals_tokenize source)

/-- A target that is dropped, a name that is assigned to and stays, and a comma at the end of a
tuple. -/
theorem atoms_of_parse_two_statements :
    ∃ source s, source = "P = F((1, true,), 's')\nA = \x7bB, g(P)\x7d" ∧
      Script.parse source = .ok s ∧
      (Token.atoms (Token.tokenize source)).map Token.text =
        ["F", "1", "true", "s", "A", "B", "g", "P"] ∧
      List.Forall₂ Spells (Token.atoms (Token.tokenize source))
        ((Node.script s).nodes.filter Node.isAtom) := by
  obtain ⟨source, hsource⟩ : ∃ source,
      source = "P = F((1, true,), 's')\nA = \x7bB, g(P)\x7d" := ⟨_, rfl⟩
  have htexts : (Token.atoms (Token.tokenize source)).map Token.text =
      ["F", "1", "true", "s", "A", "B", "g", "P"] := by
    rw [hsource]
    decide +kernel
  have hok : (Script.parse source).toOption.isSome = true := by
    rw [hsource]
    decide +kernel
  cases hparse : Script.parse source with
  | error e =>
    rw [hparse] at hok
    cases hok
  | ok s => exact ⟨source, s, hsource, hparse, htexts, atoms_of_parse hparse⟩

end GeoLint
