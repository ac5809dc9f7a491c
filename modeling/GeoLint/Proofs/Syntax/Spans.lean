import GeoLint.Proofs.Syntax.Soundness
import GeoLint.Proofs.Syntax.Tree

/-!
# Where trees stand

Every piece of a tree stands where tokens of the script stand: its span runs from one of them to
one of them (`StandsAt`).  For trees that the grammar derives this is `IsScript.standsAt`, with one
lemma for each level of the grammar.
-/

namespace GeoLint

open Node (Visit)

namespace Grammar

/-- The span runs from one of the tokens to one of them. -/
def StandsAt (ts : List Token) (span : Span) : Prop :=
  ∃ a ∈ ts, ∃ b ∈ ts, span = ⟨a.position, b.position⟩

theorem StandsAt.mono {ts us : List Token} {span : Span} (h : StandsAt ts span) (hts : ts ⊆ us) :
    StandsAt us span := by
  obtain ⟨a, ha, b, hb, hspan⟩ := h
  exact ⟨a, hts ha, b, hts hb, hspan⟩

theorem standsAt_point {ts : List Token} {t : Token} (h : t ∈ ts) :
    StandsAt ts (.point t.position) :=
  ⟨t, h, t, h, rfl⟩

/-- The walk through a phrase. -/
def Phrase.tour : Phrase → List Visit
  | .expression e => e.tour
  | .sequence es | .arguments es => toursOf es

/-- The nodes at the top of a phrase. -/
def Phrase.roots : Phrase → List Node
  | .expression e => [.expr e]
  | .sequence es | .arguments es => es.map .expr

theorem standsAt_name {ts : List Token} {t : Token} {n : Node} (ht : t ∈ ts)
    (h : Visit.enter n ∈ (Node.name (Parsing.nameOf t)).tour) : StandsAt ts n.span := by
  rcases Node.enter_mem_tour_iff.1 h with rfl | ⟨c, hc, -⟩
  · exact standsAt_point ht
  · cases hc

theorem Derives.standsAt {ts : List Token} {p : Phrase} {n : Node} (h : Derives ts p)
    (hn : Visit.enter n ∈ p.tour) : StandsAt ts n.span := by
  induction h with
  | number | text | truth =>
    rcases (Node.enter_mem_tour_iff (n := .expr _)).1 hn with rfl | ⟨c, hc, -⟩
    · exact standsAt_point List.mem_cons_self
    · cases hc
  | name => exact standsAt_name List.mem_cons_self hn
  | @call f p c ts es hf hp hts hc ih =>
    rcases (Node.enter_mem_tour_iff (n := .expr _)).1 hn with rfl | ⟨m, hm, hn⟩
    · exact ⟨f, by simp, c, by simp, rfl⟩
    · rcases List.mem_cons.1 hm with rfl | hm
      · exact standsAt_name (by simp) hn
      · exact (ih (mem_toursOf_iff.2 ⟨m, hm, hn⟩)).mono fun t ht => by simp [ht]
  | @list o c ts es ho hts hc ih =>
    rcases (Node.enter_mem_tour_iff (n := .expr _)).1 hn with rfl | hbelow
    · exact ⟨o, by simp, c, by simp, rfl⟩
    · exact (ih (mem_toursOf_iff.2 hbelow)).mono (by simp)
  | @unit o c ho hc =>
    rcases (Node.enter_mem_tour_iff (n := .expr _)).1 hn with rfl | ⟨m, hm, -⟩
    · exact ⟨o, by simp, c, by simp, rfl⟩
    · cases hm
  | group ho hts hc ih => exact (ih hn).mono (by simp)
  | @tuple o c ts es ho hts hes hc ih | @trailing o k c ts es ho hts hk hc ih =>
    rcases (Node.enter_mem_tour_iff (n := .expr _)).1 hn with rfl | hbelow
    · exact ⟨o, by simp, c, by simp, rfl⟩
    · exact (ih (mem_toursOf_iff.2 hbelow)).mono (by simp)
  | one hts ih =>
    refine ih ?_
    simpa [Phrase.tour, toursOf] using hn
  | more he hk hes ihe ih =>
    rw [Phrase.tour, toursOf, List.mem_append] at hn
    rcases hn with hn | hn
    · exact (ihe hn).mono (by simp)
    · exact (ih hn).mono (by simp)
  | empty => cases hn
  | filled hts ih => exact ih hn

theorem IsStatement.standsAt {ts : List Token} {s : Statement} {n : Node} (h : IsStatement ts s)
    (hn : Visit.enter n ∈ s.tour) : StandsAt ts n.span := by
  rcases (Node.enter_mem_tour_iff (n := .statement s)).1 hn with rfl | ⟨m, hm, hn⟩
  · cases h with
    | @call f p c => exact ⟨f, by simp, c, by simp, rfl⟩
    | @assignedCall target q f p c => exact ⟨target, by simp, c, by simp, rfl⟩
    | @assigned target q last ts e _ _ _ _ hlast =>
      have hmem : last ∈ ts := List.mem_of_getLast? hlast
      exact ⟨target, by simp, last, by simp [hmem], rfl⟩
  · rcases List.mem_cons.1 hm with rfl | hm
    · cases h with
      | call | assignedCall | assigned => exact standsAt_name (by simp) hn
    · have hbelow := mem_toursOf_iff.2 ⟨m, hm, hn⟩
      cases h with
      | call _ _ hts | assignedCall _ _ _ _ hts =>
        exact (hts.standsAt hbelow).mono fun t ht => by simp [ht]
      | assigned _ _ hts => exact ((Derives.one hts).standsAt hbelow).mono fun t ht => by simp [ht]

theorem IsBody.standsAt {ts : List Token} {body : List Statement} {s : Statement} {n : Node}
    (h : IsBody ts body) (hs : s ∈ body) (hn : Visit.enter n ∈ s.tour) : StandsAt ts n.span := by
  induction h with
  | nil => cases hs
  | cons hts _ _ ih =>
    rcases List.mem_cons.1 hs with rfl | hs
    · exact (hts.standsAt hn).mono (by simp)
    · exact (ih hs).mono fun t ht => by simp [ht]

/-- Every piece of a script's tree stands where tokens of the script stand. -/
theorem IsScript.standsAt {ts : List Token} {s : Script} {n : Node} (h : IsScript ts s)
    (hn : Visit.enter n ∈ s.tour) : StandsAt ts n.span := by
  cases h with
  | @intro us vs stop body hus hvs hstop =>
    rcases (Node.enter_mem_tour_iff (n := .script _)).1 hn with rfl | ⟨m, hm, hn⟩
    · refine ⟨(us ++ vs).head?.getD stop, ?_, (us ++ vs).getLast?.getD stop, ?_, rfl⟩
      · cases hhead : (us ++ vs).head? with
        | none => exact List.mem_append_right _ List.mem_cons_self
        | some first => exact List.mem_append_left _ (List.mem_of_head? hhead)
      · cases hlast : (us ++ vs).getLast? with
        | none => exact List.mem_append_right _ List.mem_cons_self
        | some last => exact List.mem_append_left _ (List.mem_of_getLast? hlast)
    · obtain ⟨s, hs, rfl⟩ := List.mem_map.1 hm
      exact (hvs.standsAt hs hn).mono fun t ht => by simp [ht]

end Grammar

end GeoLint
