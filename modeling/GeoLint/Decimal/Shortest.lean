import GeoLint.Decimal.Binary64

/-!
# The fewest digits that read back

A number of double precision is written with the fewest decimal digits that round to it again,
and among those with the digits nearest to it.  The decimals that round to `m · 2 ^ q` form an
interval, closed exactly when `m` is even; for each number of digits only the two neighbours of
the number on that decimal grid have to be tried.

How the digits are laid out (`Style`) is kept apart from which digits they are (`shortest`).
-/

namespace GeoLint

namespace Binary64

open Decimal (tenTo)

/-- The decimals that round to `m · 2 ^ q`, with all bounds in quarters of `2 ^ q`. -/
structure Neighbourhood where
  /-- Lower bound. -/
  low : Nat
  /-- The number itself. -/
  middle : Nat
  /-- Upper bound. -/
  high : Nat
  /-- The bounds belong to it. -/
  closed : Bool
  /-- The power of two all three are multiplied with. -/
  exponent : Int

/-- Below a power of two the next number is only half as far away. -/
def neighbourhood (m : Nat) (q : Int) : Neighbourhood where
  low := if m = twoTo 52 && leastExponent < q then 4 * m - 1 else 4 * m - 2
  middle := 4 * m
  high := 4 * m + 2
  closed := m % 2 == 0
  exponent := q - 2

/-- The power of ten of the first digit of `m · 2 ^ q`, for `m` not zero. -/
def leadingPower (m : Nat) (q : Int) : Int :=
  let shift : Nat := 330
  let n := m * twoTo q.toNat * tenTo shift / twoTo (-q).toNat
  ((Nat.toDigits 10 n).length : Int) - 1 - shift

/-- The nearest multiple of `10 ^ s` inside the neighbourhood, as its factor. -/
def Neighbourhood.nearest? (b : Neighbourhood) (s : Int) : Option Nat :=
  -- `c · 10 ^ s` against `x · 2 ^ exponent`, both multiplied out to whole numbers
  let unit := tenTo s.toNat * twoTo (-b.exponent).toNat
  let place := fun x => x * (twoTo b.exponent.toNat * tenTo (-s).toNat)
  let inside := fun c =>
    let y := c * unit
    if b.closed then place b.low ≤ y && y ≤ place b.high else place b.low < y && y < place b.high
  let down := place b.middle / unit
  let up := down + 1
  let below := place b.middle - down * unit
  let above := up * unit - place b.middle
  match inside down, inside up with
  | true, true =>
    if below < above then some down
    else if above < below then some up
    else some (down + down % 2)
  | true, false => some down
  | false, true => some up
  | false, false => none

/-- The shortest decimal that rounds to `m · 2 ^ q`: a factor and its power of ten. -/
def shortest (m : Nat) (q : Int) : Nat × Int :=
  let b := neighbourhood m q
  let top := leadingPower m q
  ((List.range 17).findSome? fun (n : Nat) => (b.nearest? (top - n)).map (·, top - n)).getD (0, 0)

/-- How a number is laid out. -/
structure Style where
  /-- Least power of ten of the first digit that is written without an exponent. -/
  leastPositional : Int
  /-- Powers of ten from here on are written with an exponent. -/
  positionalBelow : Int
  /-- Least number of digits of an exponent. -/
  exponentWidth : Nat
  /-- The text of infinity. -/
  infinity : String
  /-- The text of the value that is no number. -/
  notANumber : String

/-- Numbers as messages show them: positional from a ten-thousandth to below ten million
billions, always with a fraction; else an exponent with a sign and two digits or more. -/
def Style.message : Style := ⟨-4, 16, 2, "inf", "nan"⟩

/-- Numbers in written trees: the same digits, with the words of that format. -/
def Style.tree : Style := { Style.message with infinity := "Infinity", notANumber := "NaN" }

/-- An exponent with its mark and sign. -/
def Style.exponent (style : Style) (e : Int) : List Char :=
  let ds := Nat.toDigits 10 e.natAbs
  ['e', if e < 0 then '-' else '+'] ++ List.replicate (style.exponentWidth - ds.length) '0' ++ ds

/-- Digits with the first of them at the power of ten `e`. -/
def Style.layout (style : Style) (ds : List Char) (e : Int) : List Char :=
  if style.leastPositional ≤ e && e < style.positionalBelow then
    if e < 0 then ['0', '.'] ++ List.replicate (-e - 1).toNat '0' ++ ds
    else
      let whole := e.toNat + 1
      let fraction := if ds.length ≤ whole then ['0'] else ds.drop whole
      ds.take whole ++ List.replicate (whole - ds.length) '0' ++ '.' :: fraction
  else
    match ds with
    | [] => []
    | [d] => d :: style.exponent e
    | d :: rest => d :: '.' :: (rest ++ style.exponent e)

/-- The text of a number. -/
def render (style : Style) : Binary64 → String
  | .nan => style.notANumber
  | .infinite negative => (if negative then "-" else "") ++ style.infinity
  | .finite negative m q =>
    let body :=
      if m = 0 then style.layout ['0'] 0
      else
        let (factor, power) := shortest m q
        let ds := Nat.toDigits 10 factor
        let kept := (ds.reverse.dropWhile (· == '0')).reverse
        style.layout kept (power + ds.length - 1)
    (if negative then "-" else "") ++ String.ofList body

end Binary64

end GeoLint
