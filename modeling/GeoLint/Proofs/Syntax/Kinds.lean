import GeoLint.Proofs.Syntax.Grammar
import Mathlib.Data.List.Infix

/-!
# The grammar looks at kinds

Tokens of the same kinds derive the same phrases, with other texts and places in the trees
(`Derives.of_kinds`), and so they make up statements and scripts alike (`IsScript.of_kinds`).  Of
some kinds there are no tokens inside phrases (`Derives.isInner_kind`), so that statements hold no
separator and only the last token of a script is a final one (`IsScript.exists_final`).
-/

namespace GeoLint

namespace Grammar

open Token (Kind)

/-- The kinds of the tokens. -/
def kinds (ts : List Token) : List Kind := ts.map Token.kind

@[simp] theorem kinds_append (ts us : List Token) : kinds (ts ++ us) = kinds ts ++ kinds us :=
  List.map_append

theorem kinds_eq_cons {us : List Token} {t : Token} {ts : List Token}
    (h : kinds us = kinds (t :: ts)) :
    ∃ t' ts', us = t' :: ts' ∧ t'.kind = t.kind ∧ kinds ts' = kinds ts := by
  obtain ⟨t', ts', rfl, ht, hts⟩ := List.map_eq_cons_iff.1 h
  exact ⟨t', ts', rfl, ht, hts⟩

theorem kinds_eq_append {us ts ts₂ : List Token} (h : kinds us = kinds (ts ++ ts₂)) :
    ∃ us₁ us₂, us = us₁ ++ us₂ ∧ kinds us₁ = kinds ts ∧ kinds us₂ = kinds ts₂ := by
  rw [kinds_append] at h
  obtain ⟨us₁, us₂, rfl, h₁, h₂⟩ := List.map_eq_append_iff.1 h
  exact ⟨us₁, us₂, rfl, h₁, h₂⟩

theorem kinds_eq_singleton {us : List Token} {t : Token} (h : kinds us = kinds [t]) :
    ∃ t', us = [t'] ∧ t'.kind = t.kind := by
  obtain ⟨t', ts', rfl, ht, hts⟩ := kinds_eq_cons h
  obtain rfl : ts' = [] := List.map_eq_nil_iff.1 hts
  exact ⟨t', rfl, ht⟩

theorem kinds_eq_closed {us : List Token} {o c : Token} {ts : List Token}
    (h : kinds us = kinds (o :: (ts ++ [c]))) :
    ∃ o' ts' c', us = o' :: (ts' ++ [c']) ∧ o'.kind = o.kind ∧ kinds ts' = kinds ts ∧
      c'.kind = c.kind := by
  obtain ⟨o', rest, rfl, ho, hrest⟩ := kinds_eq_cons h
  obtain ⟨ts', cs, rfl, hts, hcs⟩ := kinds_eq_append hrest
  obtain ⟨c', rfl, hc⟩ := kinds_eq_singleton hcs
  exact ⟨o', ts', c', rfl, ho, hts, hc⟩

/-! ### Phrases -/

/-- The tokens derive a phrase of the same form; sequences are of the same length. -/
def DerivesLike (ts : List Token) : Phrase → Prop
  | .expression _ => ∃ e, Derives ts (.expression e)
  | .sequence es => ∃ es', es'.length = es.length ∧ Derives ts (.sequence es')
  | .arguments _ => ∃ es, Derives ts (.arguments es)

theorem Derives.of_kinds {ts us : List Token} {p : Phrase} (h : Derives ts p)
    (hus : kinds us = kinds ts) : DerivesLike us p := by
  induction h generalizing us with
  | number h =>
    obtain ⟨t, rfl, ht⟩ := kinds_eq_singleton hus
    exact ⟨_, .number (ht.trans h)⟩
  | text h =>
    obtain ⟨t, rfl, ht⟩ := kinds_eq_singleton hus
    exact ⟨_, .text (ht.trans h)⟩
  | truth h =>
    obtain ⟨t, rfl, ht⟩ := kinds_eq_singleton hus
    exact ⟨_, .truth (ht.trans h)⟩
  | name h =>
    obtain ⟨t, rfl, ht⟩ := kinds_eq_singleton hus
    exact ⟨_, .name (ht.trans h)⟩
  | call hf hp _ hc ih =>
    obtain ⟨f, rest, rfl, hf', hrest⟩ := kinds_eq_cons hus
    obtain ⟨p, vs, c, rfl, hp', hvs, hc'⟩ := kinds_eq_closed hrest
    obtain ⟨es, hes⟩ := ih hvs
    exact ⟨_, .call (hf'.trans hf) (hp'.trans hp) hes (hc'.trans hc)⟩
  | list ho _ hc ih =>
    obtain ⟨o, vs, c, rfl, ho', hvs, hc'⟩ := kinds_eq_closed hus
    obtain ⟨es, hes⟩ := ih hvs
    exact ⟨_, .list (ho'.trans ho) hes (hc'.trans hc)⟩
  | unit ho hc =>
    obtain ⟨o, rest, rfl, ho', hrest⟩ := kinds_eq_cons hus
    obtain ⟨c, rfl, hc'⟩ := kinds_eq_singleton hrest
    exact ⟨_, .unit (ho'.trans ho) (hc'.trans hc)⟩
  | group ho _ hc ih =>
    obtain ⟨o, vs, c, rfl, ho', hvs, hc'⟩ := kinds_eq_closed hus
    obtain ⟨e, he⟩ := ih hvs
    exact ⟨_, .group (ho'.trans ho) he (hc'.trans hc)⟩
  | tuple ho _ hlength hc ih =>
    obtain ⟨o, vs, c, rfl, ho', hvs, hc'⟩ := kinds_eq_closed hus
    obtain ⟨es, hsame, hes⟩ := ih hvs
    exact ⟨_, .tuple (ho'.trans ho) hes (hsame ▸ hlength) (hc'.trans hc)⟩
  | trailing ho _ hk hc ih =>
    obtain ⟨o, rest, rfl, ho', hrest⟩ := kinds_eq_cons hus
    obtain ⟨vs, ks, rfl, hvs, hks⟩ := kinds_eq_append hrest
    obtain ⟨k, cs, rfl, hk', hcs⟩ := kinds_eq_cons hks
    obtain ⟨c, rfl, hc'⟩ := kinds_eq_singleton hcs
    obtain ⟨es, -, hes⟩ := ih hvs
    exact ⟨_, .trailing (ho'.trans ho) hes (hk'.trans hk) (hc'.trans hc)⟩
  | one _ ih =>
    obtain ⟨e, he⟩ := ih hus
    exact ⟨[e], rfl, .one he⟩
  | more _ hk _ ih ihes =>
    obtain ⟨vs, rest, rfl, hvs, hrest⟩ := kinds_eq_append hus
    obtain ⟨k, ws, rfl, hk', hws⟩ := kinds_eq_cons hrest
    obtain ⟨e, he⟩ := ih hvs
    obtain ⟨es, hsame, hes⟩ := ihes hws
    exact ⟨e :: es, congrArg (· + 1) hsame, .more he (hk'.trans hk) hes⟩
  | empty =>
    obtain rfl : us = [] := List.map_eq_nil_iff.1 hus
    exact ⟨[], .empty⟩
  | filled _ ih =>
    obtain ⟨es, -, hes⟩ := ih hus
    exact ⟨es, .filled hes⟩

/-- The kinds of token inside phrases. -/
def isInner : Kind → Bool
  | .equals | .semicolon | .newline | .ending | .unknown => false
  | _ => true

theorem Derives.isInner_kind {ts : List Token} {p : Phrase} (h : Derives ts p) :
    ∀ t ∈ ts, isInner t.kind = true := by
  induction h with
  | number h | text h | truth h | name h => simp [h, isInner]
  | call hf hp _ hc ih => simpa [hf, hp, hc, or_imp, forall_and, isInner] using ih
  | list ho _ hc ih | group ho _ hc ih | tuple ho _ _ hc ih =>
    simpa [ho, hc, or_imp, forall_and, isInner] using ih
  | unit ho hc => simp [ho, hc, isInner]
  | trailing ho _ hk hc ih => simpa [ho, hk, hc, or_imp, forall_and, isInner] using ih
  | one _ ih | filled _ ih => exact ih
  | more _ hk _ ih ihes => simpa [hk, or_imp, forall_and, isInner] using ⟨ih, ihes⟩
  | empty => simp

/-! ### Statements and scripts -/

theorem IsStatement.of_kinds {ts us : List Token} {s : Statement} (h : IsStatement ts s)
    (hus : kinds us = kinds ts) : ∃ s', IsStatement us s' := by
  cases h with
  | call hf hp hargs hc =>
    obtain ⟨f, rest, rfl, hf', hrest⟩ := kinds_eq_cons hus
    obtain ⟨p, vs, c, rfl, hp', hvs, hc'⟩ := kinds_eq_closed hrest
    obtain ⟨es, hes⟩ := hargs.of_kinds hvs
    exact ⟨_, .call (hf'.trans hf) (hp'.trans hp) hes (hc'.trans hc)⟩
  | assignedCall htarget hq hf hp hargs hc =>
    obtain ⟨target, rest, rfl, htarget', hrest⟩ := kinds_eq_cons hus
    obtain ⟨q, vs, rfl, hq', hvs⟩ := kinds_eq_cons hrest
    obtain ⟨e, he⟩ := (Derives.call hf hp hargs hc).of_kinds hvs
    exact he.exists_isStatement (htarget'.trans htarget) (hq'.trans hq)
  | assigned htarget hq he =>
    obtain ⟨target, rest, rfl, htarget', hrest⟩ := kinds_eq_cons hus
    obtain ⟨q, vs, rfl, hq', hvs⟩ := kinds_eq_cons hrest
    obtain ⟨e, he⟩ := he.of_kinds hvs
    exact he.exists_isStatement (htarget'.trans htarget) (hq'.trans hq)

theorem IsStatement.isInner_or_equals {ts : List Token} {s : Statement} (h : IsStatement ts s) :
    ∀ t ∈ ts, isInner t.kind = true ∨ t.kind = .equals := by
  -- Behind the target and the equals sign of an assignment stands a phrase.
  have hassigned {target q : Token} {us : List Token} {e : Expr}
      (htarget : target.kind = .identifier) (hq : q.kind = .equals)
      (hus : Derives us (.expression e)) :
      ∀ t ∈ target :: q :: us, isInner t.kind = true ∨ t.kind = .equals := by
    intro t ht
    rcases List.mem_cons.1 ht with rfl | ht
    · exact .inl (by rw [htarget]; rfl)
    · rcases List.mem_cons.1 ht with rfl | ht
      · exact .inr hq
      · exact .inl (hus.isInner_kind t ht)
  cases h with
  | call hf hp hargs hc => exact fun t ht => .inl ((Derives.call hf hp hargs hc).isInner_kind t ht)
  | assignedCall htarget hq hf hp hargs hc => exact hassigned htarget hq (.call hf hp hargs hc)
  | assigned htarget hq he => exact hassigned htarget hq he

theorem IsStatement.ne_ending {ts : List Token} {s : Statement} (h : IsStatement ts s) :
    ∀ t ∈ ts, t.kind ≠ .ending := by
  intro t ht hkind
  have hinner := h.isInner_or_equals t ht
  rw [hkind] at hinner
  simp [isInner] at hinner

theorem IsStatement.separates_eq_false {ts : List Token} {s : Statement} (h : IsStatement ts s) :
    ∀ t ∈ ts, t.kind.separates = false := by
  intro t ht
  rw [Bool.eq_false_iff]
  intro hkind
  have hinner := h.isInner_or_equals t ht
  simp only [Kind.separates, Bool.or_eq_true, decide_eq_true_eq] at hkind
  rcases hkind with hkind | hkind <;> simp [hkind, isInner] at hinner

theorem Separators.of_kinds {ts us : List Token} (h : Separators ts) (hus : kinds us = kinds ts) :
    Separators us := by
  intro t ht
  have hmem : t.kind ∈ kinds ts := hus ▸ List.mem_map_of_mem ht
  obtain ⟨t', ht', hkind⟩ := List.mem_map.1 hmem
  rw [← hkind]
  exact h t' ht'

theorem Separators.ne_ending {ts : List Token} (h : Separators ts) :
    ∀ t ∈ ts, t.kind ≠ .ending := by
  intro t ht hkind
  have hseparates := h t ht
  rw [hkind] at hseparates
  cases hseparates

theorem IsBody.of_kinds {ts us : List Token} {body : List Statement} (h : IsBody ts body)
    (hus : kinds us = kinds ts) : ∃ body', IsBody us body' := by
  induction h generalizing us with
  | nil =>
    obtain rfl : us = [] := List.map_eq_nil_iff.1 hus
    exact ⟨[], .nil⟩
  | cons hs hsep _ ih =>
    obtain ⟨vs, rest, rfl, hvs, hrest⟩ := kinds_eq_append hus
    obtain ⟨seps, ws, rfl, hseps, hws⟩ := kinds_eq_append hrest
    obtain ⟨s, hs⟩ := hs.of_kinds hvs
    obtain ⟨body, hbody⟩ := ih hws
    exact ⟨s :: body, .cons hs (hsep.of_kinds hseps) hbody⟩

theorem IsBody.ne_ending {ts : List Token} {body : List Statement} (h : IsBody ts body) :
    ∀ t ∈ ts, t.kind ≠ .ending := by
  induction h with
  | nil => simp
  | cons hs hsep _ ih =>
    intro t ht
    rcases List.mem_append.1 ht with ht | ht
    · exact hs.ne_ending t ht
    · rcases List.mem_append.1 ht with ht | ht
      · exact hsep.ne_ending t ht
      · exact ih t ht

theorem IsScript.of_kinds {ts us : List Token} {s : Script} (h : IsScript ts s)
    (hus : kinds us = kinds ts) : ∃ s', IsScript us s' := by
  cases h with
  | intro hsep hbody hstop =>
    obtain ⟨rest, stops, rfl, hrest, hstops⟩ := kinds_eq_append hus
    obtain ⟨seps, vs, rfl, hseps, hvs⟩ := kinds_eq_append hrest
    obtain ⟨stop, rfl, hstop'⟩ := kinds_eq_singleton hstops
    obtain ⟨body, hbody⟩ := hbody.of_kinds hvs
    exact ⟨_, .intro (hsep.of_kinds hseps) hbody (hstop'.trans hstop)⟩

/-- A script ends in a final token and has no other. -/
theorem IsScript.exists_final {ts : List Token} {s : Script} (h : IsScript ts s) :
    ∃ us stop, ts = us ++ [stop] ∧ stop.kind = .ending ∧ ∀ t ∈ us, t.kind ≠ .ending := by
  cases h with
  | intro hsep hbody hstop =>
    refine ⟨_, _, rfl, hstop, fun t ht => ?_⟩
    exact (List.mem_append.1 ht).elim (hsep.ne_ending t) (hbody.ne_ending t)

end Grammar

end GeoLint
