import GeoLint.Proofs.Syntax.Kinds
import GeoLint.Proofs.Syntax.Spans
import GeoLint.Proofs.Token.Order

/-!
# Spans nest

Every piece of a tree stands on a slice of the tokens: its span runs from the first token of the
slice to the last (`Covers`), and the pieces right below it cover parts of that slice, one behind
the other (`Lined`).  This is a fact about the grammar alone, with one lemma for each level of it
(`Derives.allPlaced`, `IsStatement.standsOn`, `IsBody.lined`).

Tokens stand in order, so slices that lie one behind the other, or one in the other, have spans that
do.  That is `spans_nested`: each node lies within its parent and ends before the next one starts.
-/

namespace GeoLint

open Token (tokenize)

/-- The spans of a node and of the nodes right below it are nested and in order. -/
structure Node.Nested (n : Node) : Prop where
  /-- The node starts no later than it ends. -/
  ordered : n.span.start ≤ n.span.stop
  /-- What is right below it lies within it. -/
  within : ∀ c ∈ n.children, n.span.start ≤ c.span.start ∧ c.span.stop ≤ n.span.stop
  /-- Of these, each ends before any later one starts. -/
  apart : n.children.Pairwise fun c c' => c.span.stop < c'.span.start

namespace Grammar

/-- Each token stands strictly behind the ones before it. -/
def InOrder (ts : List Token) : Prop := ts.Pairwise fun t u => t.position < u.position

/-- The span runs from the first of the tokens to the last. -/
def Covers (span : Span) (us : List Token) : Prop :=
  ∃ first last, us.head? = some first ∧ us.getLast? = some last ∧
    span = ⟨first.position, last.position⟩

/-- The nodes cover slices of the tokens, one behind the other. -/
inductive Lined : List Token → List Node → Prop
  /-- No nodes. -/
  | nil (ts : List Token) : Lined ts []
  /-- A node, behind some tokens and in front of the slices of the others. -/
  | cons (before : List Token) {us rest : List Token} {n : Node} {ns : List Node}
    (hn : Covers n.span us) (hns : Lined rest ns) : Lined (before ++ (us ++ rest)) (n :: ns)

/-- The node covers the tokens, and the nodes right below it cover slices of them in turn. -/
structure StandsOn (us : List Token) (n : Node) : Prop where
  /-- The span of the node. -/
  covers : Covers n.span us
  /-- The nodes right below it. -/
  lined : Lined us n.children

/-! ### Slices one behind the other -/

namespace Lined

variable {ts us : List Token} {ns ms : List Node}

theorem front (us : List Token) (h : Lined ts ns) : Lined (us ++ ts) ns := by
  cases h with
  | nil => exact .nil _
  | cons before hn hns =>
    rw [← List.append_assoc]
    exact .cons _ hn hns

theorem append (h : Lined ts ns) (h' : Lined us ms) : Lined (ts ++ us) (ns ++ ms) := by
  induction h with
  | nil => exact h'.front _
  | cons before hn _ ih =>
    rw [List.append_assoc, List.append_assoc]
    exact .cons before hn ih

theorem back (h : Lined ts ns) (us : List Token) : Lined (ts ++ us) ns := by
  have happend := h.append (.nil us)
  rwa [List.append_nil] at happend

theorem single {n : Node} (h : Covers n.span ts) : Lined ts [n] := by
  have hcons := Lined.cons [] h (.nil [])
  rwa [List.nil_append, List.append_nil] at hcons

theorem exists_covers {n : Node} (h : Lined ts ns) (hn : n ∈ ns) :
    ∃ us, us <:+: ts ∧ Covers n.span us := by
  induction h with
  | nil => cases hn
  | @cons before us rest m ms hm _ ih =>
    rcases List.mem_cons.1 hn with rfl | hn
    · exact ⟨us, ⟨before, rest, List.append_assoc ..⟩, hm⟩
    · obtain ⟨vs, hvs, hcovers⟩ := ih hn
      have hrest : rest <:+: before ++ (us ++ rest) := ⟨before ++ us, [], by simp⟩
      exact ⟨vs, hvs.trans hrest, hcovers⟩

theorem eq_nil (h : Lined [] ns) : ns = [] := by
  rw [List.eq_nil_iff_forall_not_mem]
  intro n hn
  obtain ⟨us, hus, first, -, hfirst, -⟩ := h.exists_covers hn
  obtain rfl := List.infix_nil.1 hus
  cases hfirst

end Lined

theorem Covers.standsAt {span : Span} {us : List Token} (h : Covers span us) :
    StandsAt us span := by
  obtain ⟨first, last, hfirst, hlast, hspan⟩ := h
  exact ⟨first, List.mem_of_head? hfirst, last, List.mem_of_getLast? hlast, hspan⟩

theorem covers_closed (o c : Token) (ts : List Token) :
    Covers ⟨o.position, c.position⟩ (o :: (ts ++ [c])) :=
  ⟨o, c, rfl, getLast?_closed o c ts, rfl⟩

theorem covers_point (t : Token) : Covers (.point t.position) [t] :=
  ⟨t, t, rfl, rfl, rfl⟩

/-! ### The grammar -/

theorem Derives.lined {ts : List Token} {p : Phrase} (h : Derives ts p) : Lined ts p.roots := by
  induction h with
  | number | text | truth | name => exact .single (covers_point _)
  | call => exact .single (covers_closed _ _ (_ :: _))
  | list | tuple => exact .single (covers_closed _ _ _)
  | unit => exact .single (covers_closed _ _ [])
  | @trailing o k c ts =>
    rw [List.append_cons]
    exact .single (covers_closed o c (ts ++ [k]))
  | @group o c ts e _ _ _ ih => exact (ih.back [c]).front [o]
  | one _ ih | filled _ ih => exact ih
  | @more k _ _ _ _ _ _ _ ihe ih => exact ihe.append (ih.front [k])
  | empty => exact .nil []

/-- The expression stands on a slice of the tokens that derives it. -/
def Placed (ts : List Token) (e : Expr) : Prop :=
  ∃ us, us <:+: ts ∧ Derives us (.expression e) ∧ StandsOn us (.expr e)

/-- Whatever is at or below one of the nodes is an expression that stands on its tokens. -/
def AllPlaced (ts : List Token) (ns : List Node) : Prop :=
  ∀ r ∈ ns, ∀ n ∈ r.nodes, ∃ e, n = .expr e ∧ Placed ts e

namespace AllPlaced

variable {ts us : List Token} {ns : List Node}

theorem mono (h : AllPlaced ts ns) (hts : ts <:+: us) : AllPlaced us ns := by
  intro r hr n hn
  obtain ⟨e, rfl, vs, hvs, hplaced⟩ := h r hr n hn
  exact ⟨e, rfl, vs, hvs.trans hts, hplaced⟩

theorem cons {n : Node} (h : AllPlaced ts [n]) (h' : AllPlaced ts ns) : AllPlaced ts (n :: ns) := by
  intro r hr
  rcases List.mem_cons.1 hr with rfl | hr
  · exact h r List.mem_cons_self
  · exact h' r hr

/-- A node is placed with all below it. -/
theorem root {e : Expr} (hus : Derives us (.expression e)) (hcovers : Covers e.span us)
    (hlined : Lined us (Node.expr e).children) (h : AllPlaced us (Node.expr e).children) :
    AllPlaced us [.expr e] := by
  intro r hr n hn
  obtain rfl := List.mem_singleton.1 hr
  rcases Node.mem_nodes_iff.1 hn with rfl | ⟨c, hc, hn⟩
  · exact ⟨e, rfl, us, List.infix_rfl, hus, hcovers, hlined⟩
  · exact h c hc n hn

theorem leaf {t : Token} {e : Expr} (ht : Derives [t] (.expression e))
    (hspan : e.span = .point t.position) (hchildren : (Node.expr e).children = []) :
    AllPlaced [t] [.expr e] := by
  refine root ht (hspan ▸ covers_point t) ?_ ?_
  · rw [hchildren]
    exact .nil _
  · simp [hchildren, AllPlaced]

end AllPlaced

/-- Every node of a phrase is an expression that stands on a slice of its tokens. -/
theorem Derives.allPlaced {ts : List Token} {p : Phrase} (h : Derives ts p) :
    AllPlaced ts p.roots := by
  induction h with
  | number h => exact .leaf (.number h) rfl rfl
  | text h => exact .leaf (.text h) rfl rfl
  | truth h => exact .leaf (.truth h) rfl rfl
  | name h => exact .leaf (.name h) rfl rfl
  | @call f p c ts es hf hp hts hc ih =>
    refine .root (.call hf hp hts hc) (covers_closed f c (p :: ts)) ?_ ?_
    · exact .cons [] (n := .name (Parsing.nameOf f)) (covers_point f)
        ((hts.lined.back [c]).front [p])
    · have hname : AllPlaced [f] [.name (Parsing.nameOf f)] := .leaf (.name hf) rfl rfl
      exact (hname.mono ⟨[], p :: (ts ++ [c]), rfl⟩).cons (ih.mono ⟨[f, p], [c], by simp⟩)
  | @list o c ts es ho hts hc ih =>
    exact .root (.list ho hts hc) (covers_closed o c ts) ((hts.lined.back [c]).front [o])
      (ih.mono ⟨[o], [c], by simp⟩)
  | @unit o c ho hc =>
    exact .root (.unit ho hc) (covers_closed o c []) (.nil _) (by simp [AllPlaced, Node.children])
  | @group o c ts e ho hts hc ih => exact ih.mono ⟨[o], [c], by simp⟩
  | @tuple o c ts es ho hts hes hc ih =>
    exact .root (.tuple ho hts hes hc) (covers_closed o c ts) ((hts.lined.back [c]).front [o])
      (ih.mono ⟨[o], [c], by simp⟩)
  | @trailing o k c ts es ho hts hk hc ih =>
    have hcovers := covers_closed o c (ts ++ [k])
    rw [← List.append_cons] at hcovers
    exact .root (.trailing ho hts hk hc) hcovers ((hts.lined.back [k, c]).front [o])
      (ih.mono ⟨[o], [k, c], by simp⟩)
  | one _ ih | filled _ ih => exact ih
  | @more k ts us e es hts hk hus ihe ih =>
    exact (ihe.mono ⟨[], k :: us, rfl⟩).cons (ih.mono ⟨ts ++ [k], [], by simp⟩)
  | empty => simp [AllPlaced, Phrase.roots]

/-! ### Statements and scripts -/

theorem IsStatement.standsOn {ts : List Token} {s : Statement} (h : IsStatement ts s) :
    StandsOn ts (.statement s) := by
  cases h with
  | @call f p c ts es hf hp hts hc =>
    exact ⟨covers_closed f c (p :: ts), .cons [] (n := .name (Parsing.nameOf f)) (covers_point f)
      ((hts.lined.back [c]).front [p])⟩
  | @assignedCall target q f p c ts es _ _ hf hp hts hc =>
    exact ⟨covers_closed target c (q :: f :: p :: ts),
      .cons [target, q] (n := .name (Parsing.nameOf f)) (covers_point f)
        ((hts.lined.back [c]).front [p])⟩
  | @assigned target q last ts e _ _ hts _ hlast =>
    refine ⟨⟨target, last, rfl, ?_, rfl⟩,
      .cons [] (n := .name (Parsing.nameOf target)) (covers_point target) (hts.lined.front [q])⟩
    rw [List.getLast?_cons_cons, List.getLast?_cons, hlast]
    rfl

/-- Below a statement all are expressions that stand on slices of its tokens. -/
theorem IsStatement.allPlaced {ts : List Token} {s : Statement} (h : IsStatement ts s) :
    AllPlaced ts (Node.statement s).children := by
  have hname {t : Token} (ht : t.kind = .identifier) :
      AllPlaced [t] [.name (Parsing.nameOf t)] := .leaf (.name ht) rfl rfl
  cases h with
  | @call f p c ts es hf hp hts hc =>
    exact ((hname hf).mono ⟨[], p :: (ts ++ [c]), rfl⟩).cons
      (hts.allPlaced.mono ⟨[f, p], [c], by simp⟩)
  | @assignedCall target q f p c ts es _ _ hf hp hts hc =>
    exact ((hname hf).mono ⟨[target, q], p :: (ts ++ [c]), rfl⟩).cons
      (hts.allPlaced.mono ⟨[target, q, f, p], [c], by simp⟩)
  | @assigned target q last ts e htarget _ hts =>
    exact ((hname htarget).mono ⟨[], q :: ts, rfl⟩).cons
      (hts.allPlaced.mono ⟨[target, q], [], by simp⟩)

/-- The token is part of a statement. -/
def isContent (t : Token) : Bool := !t.kind.separates && t.kind ≠ .ending

theorem Separators.filter_isContent {us : List Token} (h : Separators us) :
    us.filter isContent = [] := by
  rw [List.filter_eq_nil_iff]
  intro t ht
  simp [isContent, h t ht]

/-- The slices of the tokens `ts` are the statements, each from its first token to its last. -/
def Slices (ts : List Token) (uss : List (List Token)) (body : List Statement) : Prop :=
  List.Forall₂ (fun us s => us <:+: ts ∧ IsStatement us s ∧ Covers s.span us) uss body

theorem Slices.mono {ts us : List Token} {uss : List (List Token)} {body : List Statement}
    (h : Slices ts uss body) (hts : ts <:+: us) : Slices us uss body :=
  List.Forall₂.imp (fun _ _ hs => ⟨hs.1.trans hts, hs.2⟩) h

theorem Slices.exists_slice {ts : List Token} {uss : List (List Token)} {body : List Statement}
    (h : Slices ts uss body) {s : Statement} (hs : s ∈ body) :
    ∃ us, us <:+: ts ∧ IsStatement us s := by
  induction h with
  | nil => cases hs
  | cons hus _ ih =>
    rcases List.mem_cons.1 hs with rfl | hs
    · exact ⟨_, hus.1, hus.2.1⟩
    · exact ih hs

theorem IsBody.slices {ts : List Token} {body : List Statement} (h : IsBody ts body) :
    ∃ uss, Slices ts uss body ∧ uss.flatten = ts.filter isContent := by
  induction h with
  | nil => exact ⟨[], .nil, rfl⟩
  | @cons ts us vs s ss hs hus _ ih =>
    obtain ⟨uss, huss, hflatten⟩ := ih
    have hts : ts.filter isContent = ts := List.filter_eq_self.2 fun t ht => by
      simp [isContent, hs.separates_eq_false t ht, hs.ne_ending t ht]
    refine ⟨ts :: uss, ?_, ?_⟩
    · have hrest : Slices (ts ++ (us ++ vs)) uss ss := huss.mono ⟨ts ++ us, [], by simp⟩
      exact .cons ⟨⟨[], us ++ vs, rfl⟩, hs, hs.standsOn.covers⟩ hrest
    · rw [List.flatten_cons, hflatten, List.filter_append, List.filter_append, hts,
        hus.filter_isContent, List.nil_append]

theorem IsBody.lined {ts : List Token} {body : List Statement} (h : IsBody ts body) :
    Lined ts (body.map .statement) := by
  induction h with
  | nil => exact .nil []
  | @cons ts us vs s ss hs _ _ ih =>
    exact .cons [] (n := .statement s) hs.standsOn.covers (ih.front us)

/-! ### Slices of tokens in order -/

section InOrder

variable {us : List Token}

theorem InOrder.head_le (h : InOrder us) {first t : Token} (hfirst : us.head? = some first)
    (ht : t ∈ us) : first.position ≤ t.position := by
  cases us with
  | nil => cases ht
  | cons u us =>
    obtain rfl : u = first := Option.some.inj hfirst
    rcases List.mem_cons.1 ht with rfl | ht
    · exact le_rfl
    · exact ((List.pairwise_cons.1 h).1 t ht).le

theorem InOrder.le_last (h : InOrder us) {last t : Token} (hlast : us.getLast? = some last)
    (ht : t ∈ us) : t.position ≤ last.position := by
  obtain ⟨vs, rfl⟩ := List.getLast?_eq_some_iff.1 hlast
  rcases List.mem_append.1 ht with ht | ht
  · exact ((List.pairwise_append.1 h).2.2 t ht last List.mem_cons_self).le
  · obtain rfl := List.mem_singleton.1 ht
    exact le_rfl

/-- What stands where some of the tokens do lies within what covers all of them. -/
theorem Covers.within {outer inner : Span} {vs : List Token} (h : Covers outer us)
    (hus : InOrder us) (hinner : Covers inner vs) (hvs : vs ⊆ us) :
    outer.start ≤ inner.start ∧ inner.stop ≤ outer.stop := by
  obtain ⟨first, last, hfirst, hlast, rfl⟩ := h
  obtain ⟨a, ha, b, hb, rfl⟩ := hinner.standsAt
  exact ⟨hus.head_le hfirst (hvs ha), hus.le_last hlast (hvs hb)⟩

theorem Covers.start_le_stop {span : Span} (h : Covers span us) (hus : InOrder us) :
    span.start ≤ span.stop := by
  obtain ⟨first, last, hfirst, hlast, rfl⟩ := h
  exact hus.head_le hfirst (List.mem_of_getLast? hlast)

theorem Lined.apart {ns : List Node} (h : Lined us ns) (hus : InOrder us) :
    ns.Pairwise fun n m => n.span.stop < m.span.start := by
  induction h with
  | nil => exact .nil
  | @cons before vs rest n ns hn hns ih =>
    have hbehind := List.pairwise_append.1 (List.pairwise_append.1 hus).2.1
    refine List.pairwise_cons.2 ⟨fun m hm => ?_, ih hbehind.2.1⟩
    obtain ⟨ws, hws, hm⟩ := hns.exists_covers hm
    obtain ⟨a, -, b, hb, hspan⟩ := hn.standsAt
    obtain ⟨c, hc, d, -, hspan'⟩ := hm.standsAt
    rw [hspan, hspan']
    exact hbehind.2.2 b hb c (hws.subset hc)

theorem StandsOn.nested {n : Node} (h : StandsOn us n) (hus : InOrder us) : n.Nested where
  ordered := h.covers.start_le_stop hus
  within c hc := by
    obtain ⟨vs, hvs, hcovers⟩ := h.lined.exists_covers hc
    exact h.covers.within hus hcovers hvs.subset
  apart := h.lined.apart hus

end InOrder

/-! ### Scripts -/

namespace IsScript

variable {ts : List Token} {s : Script}

/-- A script covers its tokens but the final one; if there are no others it has no statements. -/
theorem nested_root (h : IsScript ts s) (hts : InOrder ts) : (Node.script s).Nested := by
  cases h with
  | @intro us vs stop body hus hvs hstop =>
    have hlined : Lined (us ++ vs) (body.map .statement) := hvs.lined.front us
    have horder : InOrder (us ++ vs) := (List.pairwise_append.1 hts).1
    generalize us ++ vs = ws at hlined horder
    cases ws with
    | nil =>
      obtain rfl : body = [] := List.map_eq_nil_iff.1 hlined.eq_nil
      exact ⟨le_rfl, by simp [Node.children], by simp [Node.children]⟩
    | cons first ws =>
      have hcovers : Covers (extent (first :: ws) stop) (first :: ws) :=
        ⟨first, _, rfl, List.getLast?_cons, by simp [extent, List.getLast?_cons]⟩
      exact StandsOn.nested (n := .script _) ⟨hcovers, hlined⟩ horder

theorem slices (h : IsScript ts s) :
    ∃ uss, Slices ts uss s.body ∧ uss.flatten = ts.filter isContent := by
  cases h with
  | @intro us vs stop body hus hvs hstop =>
    obtain ⟨uss, huss, hflatten⟩ := hvs.slices
    refine ⟨uss, huss.mono ⟨us, [stop], rfl⟩, ?_⟩
    simp [List.filter_append, hus.filter_isContent, hflatten, isContent, hstop]

/-- Each node of a script is the script, one of its statements, or placed in it. -/
theorem mem_nodes (h : IsScript ts s) {n : Node} (hn : n ∈ (Node.script s).nodes) :
    n = .script s ∨ (∃ us st, us <:+: ts ∧ IsStatement us st ∧ n = .statement st) ∨
      ∃ e, n = .expr e ∧ Placed ts e := by
  obtain ⟨uss, huss, -⟩ := h.slices
  rcases Node.mem_nodes_iff.1 hn with hn | ⟨c, hc, hn⟩
  · exact .inl hn
  · obtain ⟨st, hst, rfl⟩ := List.mem_map.1 hc
    obtain ⟨us, hus, hstatement⟩ := huss.exists_slice hst
    rcases Node.mem_nodes_iff.1 hn with rfl | ⟨c, hc, hn⟩
    · exact .inr (.inl ⟨us, st, hus, hstatement, rfl⟩)
    · exact .inr (.inr ((hstatement.allPlaced.mono hus) c hc n hn))

theorem nested (h : IsScript ts s) (hts : InOrder ts) {n : Node}
    (hn : n ∈ (Node.script s).nodes) : n.Nested := by
  rcases h.mem_nodes hn with rfl | ⟨us, st, hus, hstatement, rfl⟩ | ⟨e, rfl, us, hus, -, hon⟩
  · exact h.nested_root hts
  · exact hstatement.standsOn.nested (hts.sublist hus.sublist)
  · exact hon.nested (hts.sublist hus.sublist)

theorem placed (h : IsScript ts s) {e : Expr} (he : .expr e ∈ (Node.script s).nodes) :
    Placed ts e := by
  rcases h.mem_nodes he with heq | ⟨us, st, -, -, heq⟩ | ⟨e', heq, hplaced⟩
  · cases heq
  · cases heq
  · cases heq
    exact hplaced

end IsScript

end Grammar

open Grammar

/-- **Spans are nested intervals, in the order of the script.**

The tokens of a script stand one strictly behind the other.  In the tree of a script, every node
starts no later than it ends, lies within the node above it, and ends before the next node below
the same one starts.  Every expression covers a slice of the tokens that derives it, and so does
every statement; the slices of the statements are, one behind the other, all tokens of the script
but the separators and the final one. -/
theorem spans_nested (source : String) :
    ((tokenize source).Pairwise fun t u => t.position < u.position) ∧
      ∀ s, Script.parse source = .ok s →
        (∀ n ∈ (Node.script s).nodes, n.Nested) ∧
        (∀ e, .expr e ∈ (Node.script s).nodes →
          ∃ us, us <:+: tokenize source ∧ Derives us (.expression e) ∧ Covers e.span us) ∧
        ∃ uss, Slices (tokenize source) uss s.body ∧
          uss.flatten = (tokenize source).filter isContent := by
  have horder := Token.pairwise_tokenize source
  refine ⟨horder, fun s hparse => ?_⟩
  have hscript := isScript_of_parse hparse
  refine ⟨fun n hn => hscript.nested horder hn, fun e he => ?_, hscript.slices⟩
  obtain ⟨us, hus, hderives, hon⟩ := hscript.placed he
  exact ⟨us, hus, hderives, hon.covers⟩

/-- A target, a group, a comma at the end of a tuple, and a string literal with an escaped line end:
the spans of the script, and of each of its statements with all below it. -/
theorem spans_nested_two_statements :
    ∃ source s, source = "P = F((\x7b1\x7d,),'a\\\nb')\nQ = (B)" ∧ Script.parse source = .ok s ∧
      (∀ n ∈ (Node.script s).nodes, n.Nested) ∧
      (Node.script s).nodes.map Node.span =
        [⟨⟨1, 1⟩, ⟨2, 7⟩⟩, ⟨⟨1, 1⟩, ⟨1, 20⟩⟩, .point ⟨1, 5⟩, ⟨⟨1, 7⟩, ⟨1, 12⟩⟩,
          ⟨⟨1, 8⟩, ⟨1, 10⟩⟩, .point ⟨1, 9⟩, .point ⟨1, 14⟩, ⟨⟨2, 1⟩, ⟨2, 7⟩⟩, .point ⟨2, 1⟩,
          .point ⟨2, 6⟩] := by
  obtain ⟨source, hsource⟩ : ∃ source,
      source = "P = F((\x7b1\x7d,),'a\\\nb')\nQ = (B)" := ⟨_, rfl⟩
  have hspans : (Script.parse source).toOption.map (fun s => (Node.script s).nodes.map Node.span) =
      some [⟨⟨1, 1⟩, ⟨2, 7⟩⟩, ⟨⟨1, 1⟩, ⟨1, 20⟩⟩, .point ⟨1, 5⟩, ⟨⟨1, 7⟩, ⟨1, 12⟩⟩,
        ⟨⟨1, 8⟩, ⟨1, 10⟩⟩, .point ⟨1, 9⟩, .point ⟨1, 14⟩, ⟨⟨2, 1⟩, ⟨2, 7⟩⟩, .point ⟨2, 1⟩,
        .point ⟨2, 6⟩] := by
    rw [hsource]
    decide +kernel
  cases hparse : Script.parse source with
  | error e =>
    rw [hparse] at hspans
    cases hspans
  | ok s =>
    rw [hparse] at hspans
    exact ⟨source, s, hsource, hparse, ((spans_nested source).2 s hparse).1,
      Option.some.inj hspans⟩

end GeoLint
