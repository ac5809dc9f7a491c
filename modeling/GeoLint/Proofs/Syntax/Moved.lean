import GeoLint.Proofs.Token.Exchange
import GeoLint.Syntax.Parser

/-!
# Trees at other places

`moved place` puts a token, or a piece of a tree with all below it, where `place` says, and leaves
everything else as it is.  Two trees that become equal when they are moved differ in nothing but
places; which places may differ is for `place` to say.
-/

namespace GeoLint

variable (place : Position → Position)

/-- The token at another place. -/
def Token.moved (t : Token) : Token := { t with position := place t.position }

/-- The span between other places. -/
def Span.moved (s : Span) : Span := ⟨place s.start, place s.stop⟩

/-- The name at another place. -/
def Name.moved (n : Name) : Name := { n with span := n.span.moved place }

mutual
/-- The expression at other places. -/
def Expr.moved : Expr → Expr
  | .name n => .name (n.moved place)
  | .number x s => .number x (s.moved place)
  | .text x s => .text x (s.moved place)
  | .truth x s => .truth x (s.moved place)
  | .list es s => .list (movedAll es) (s.moved place)
  | .tuple es s => .tuple (movedAll es) (s.moved place)
  | .call f as s => .call (f.moved place) (movedAll as) (s.moved place)

/-- The expressions at other places. -/
def movedAll : List Expr → List Expr
  | [] => []
  | e :: es => e.moved :: movedAll es
end

/-- The statement at other places. -/
def Statement.moved (s : Statement) : Statement where
  command := s.command.moved place
  arguments := movedAll place s.arguments
  span := s.span.moved place

/-- The script at other places. -/
def Script.moved (s : Script) : Script where
  body := s.body.map (Statement.moved place)
  span := s.span.moved place

/-- The error at another place. -/
def SyntaxError.moved (e : SyntaxError) : SyntaxError := { e with position := place e.position }

/-! ### Small facts -/

@[simp] theorem Token.kind_moved (t : Token) : (t.moved place).kind = t.kind := rfl

@[simp] theorem Token.text_moved (t : Token) : (t.moved place).text = t.text := rfl

/-- Tokens at related places become equal when they are moved to where these places agree. -/
theorem Token.map_moved_eq {ρ : Position → Position → Prop} {place place' : Position → Position}
    (hplace : ∀ p p', ρ p p' → place' p' = place p) {ts ts' : List Token}
    (h : List.Forall₂ (Token.Alike ρ) ts ts') :
    ts'.map (Token.moved place') = ts.map (Token.moved place) := by
  induction h with
  | nil => rfl
  | cons hlike _ ih =>
    rw [List.map_cons, List.map_cons, ih, Token.moved, Token.moved, hplace _ _ hlike.place,
      hlike.kind, hlike.text]

theorem movedAll_eq_map (es : List Expr) : movedAll place es = es.map (Expr.moved place) := by
  induction es with
  | nil => rfl
  | cons e es ih => rw [movedAll, ih, List.map_cons]

mutual
theorem Expr.moved_id : ∀ e : Expr, e.moved id = e
  | .name _ | .number _ _ | .text _ _ | .truth _ _ => rfl
  | .list es s => by rw [Expr.moved, movedAll_id es]; rfl
  | .tuple es s => by rw [Expr.moved, movedAll_id es]; rfl
  | .call f as s => by rw [Expr.moved, movedAll_id as]; rfl

theorem movedAll_id : ∀ es : List Expr, movedAll id es = es
  | [] => rfl
  | e :: es => by rw [movedAll, Expr.moved_id e, movedAll_id es]
end

@[simp] theorem Statement.moved_id (s : Statement) : s.moved id = s := by
  rw [Statement.moved, movedAll_id]
  rfl

end GeoLint
