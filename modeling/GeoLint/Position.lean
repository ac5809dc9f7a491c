/-!
# Positions in a script

A position is a line and a column, both counted from one; columns count characters.  A `Span`
runs from the first to the last token of a piece of a script, and both of its ends are the
positions where those tokens start.
-/

namespace GeoLint

/-- A place in a script. -/
structure Position where
  /-- The line, from one. -/
  line : Nat
  /-- The character in the line, from one. -/
  column : Nat
deriving DecidableEq, Repr

namespace Position

/-- Where every script starts. -/
def origin : Position := ⟨1, 1⟩

/-- The place `n` characters further on the same line. -/
def right (p : Position) (n : Nat) : Position := ⟨p.line, p.column + n⟩

/-- The start of the next line. -/
def nextLine (p : Position) : Position := ⟨p.line + 1, 1⟩

@[simp] theorem right_zero (p : Position) : p.right 0 = p := rfl

@[simp] theorem right_right (p : Position) (m n : Nat) : (p.right m).right n = p.right (m + n) := by
  simp [right, Nat.add_assoc]

@[simp] theorem line_right (p : Position) (n : Nat) : (p.right n).line = p.line := rfl

end Position

/-- The stretch of a script between two tokens. -/
structure Span where
  /-- Where the first token starts. -/
  start : Position
  /-- Where the last token starts. -/
  stop : Position
deriving DecidableEq, Repr

/-- The span of a single token. -/
def Span.point (p : Position) : Span := ⟨p, p⟩

end GeoLint
