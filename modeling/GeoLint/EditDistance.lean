import GeoLint.Text.LetterCase

/-!
# Edit distance

The distance between two texts is the least number of characters that have to be inserted,
deleted or replaced to turn one into the other.  It is computed row by row: the row of a prefix
of the first text holds the distances from that prefix to every prefix of the second.
-/

namespace GeoLint

namespace EditDistance

/-- The cells of the row below, from the second on.  `left` is the cell before, `diagonal` the one
above that, and `ups` are the cells above. -/
def rowTail (c : Char) (left diagonal : Nat) : List Char → List Nat → List Nat
  | d :: ds, up :: ups =>
    let cell := min (min (up + 1) (left + 1)) (diagonal + if c = d then 0 else 1)
    cell :: rowTail c cell up ds ups
  | _, _ => []

/-- The row of a prefix with one more character `c`. -/
def nextRow (ds : List Char) (row : List Nat) (c : Char) : List Nat :=
  match row with
  | [] => []
  | first :: ups => (first + 1) :: rowTail c (first + 1) first ds ups

/-- The row of the whole first text. -/
def lastRow (cs ds : List Char) : List Nat :=
  cs.foldl (nextRow ds) (List.range (ds.length + 1))

/-- The distance between two texts. -/
def distance (cs ds : List Char) : Nat :=
  (lastRow cs ds).getLastD 0

/-! ### Similar names -/

/-- At most this many names are suggested. -/
def maxSuggestions : Nat := 3

/-- Names further away than this are not suggested. -/
def maxDistance : Int := 3

/-- The distance between two names, whatever the case of their letters. -/
def nameDistance (a b : String) : Nat :=
  distance (Text.lower a).toList (Text.lower b).toList

/-- The names within `limit` of `target`, each with its distance. -/
def candidates (target : String) (names : List String) (limit : Int) : List (Nat × String) :=
  (names.map fun n => (nameDistance target n, n)).filter fun c => (c.1 : Int) ≤ limit

/-- The names nearest to `target`, the nearest first; names equally near keep their order. -/
def similar (target : String) (names : List String) (limit : Int) : List String :=
  let ranked := (candidates target names limit).mergeSort fun a b => a.1 ≤ b.1
  (ranked.take maxSuggestions).map Prod.snd

end EditDistance

end GeoLint
