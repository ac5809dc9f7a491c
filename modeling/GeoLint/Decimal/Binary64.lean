import GeoLint.Decimal.Basic

/-!
# Numbers of double precision

`Binary64` holds a number of double precision exactly, as a sign, a whole mantissa below `2^53`
and a power of two.  `Binary64.ofDecimal` rounds a decimal number to the nearest one, and of two
that are equally near to the one with an even mantissa.  All arithmetic is on whole numbers.
-/

namespace GeoLint

/-- A number of double precision. -/
inductive Binary64 where
  /-- `± mantissa · 2 ^ exponent`. -/
  | finite (negative : Bool) (mantissa : Nat) (exponent : Int)
  /-- Beyond every finite number. -/
  | infinite (negative : Bool)
  /-- Not a number. -/
  | nan
deriving DecidableEq, Repr

namespace Binary64

/-- A power of two. -/
def twoTo (n : Nat) : Nat := Nat.pow 2 n

/-- The least power of two, that of the subnormal numbers. -/
def leastExponent : Int := -1074

/-- The greatest power of two a mantissa of 53 bits can stand with. -/
def greatestExponent : Int := 971

/-- The whole number nearest `num / den`; a half goes to the even neighbour. -/
def divRound (num den : Nat) : Nat :=
  let q := num / den
  let r := num % den
  if 2 * r < den then q
  else if den < 2 * r then q + 1
  else q + q % 2

/-- Numerator and denominator of `num / den / 2 ^ q`. -/
def scaled (num den : Nat) (q : Int) : Nat × Nat :=
  (num * twoTo (-q).toNat, den * twoTo q.toNat)

/-- The power of two with which the mantissa of `num / den` has 53 bits, or the least one. -/
def exponentFor (num den : Nat) : Int :=
  let guess := max ((num.log2 : Int) - den.log2 - 53) leastExponent
  let (n, d) := scaled num den guess
  if twoTo 53 * d ≤ n then guess + 1 else guess

/-- The number of double precision nearest `± num / den`. -/
def ofRatio (negative : Bool) (num den : Nat) : Binary64 :=
  if num = 0 then .finite negative 0 leastExponent
  else
    let q := exponentFor num den
    let (n, d) := scaled num den q
    let m := divRound n d
    -- rounding up may have carried into a 54th bit
    let (m, q) := if m = twoTo 53 then (twoTo 52, q + 1) else (m, q)
    if greatestExponent < q then .infinite negative else .finite negative m q

/-- The number of double precision nearest a decimal number.  Far outside the range the answer is
known from the number of digits alone, so no huge power of ten is ever computed. -/
def ofDecimal (d : Decimal) : Binary64 :=
  let size : Int := (Nat.toDigits 10 d.digits).length + d.exponent
  if d.digits = 0 || size < -330 then .finite d.negative 0 leastExponent
  else if 400 < size then .infinite d.negative
  else
    ofRatio d.negative (d.digits * Decimal.tenTo d.exponent.toNat)
      (Decimal.tenTo (-d.exponent).toNat)

/-- The number a numeral stands for, rounded. -/
def parse? (cs : List Char) : Option Binary64 :=
  (Decimal.parse? cs).map ofDecimal

/-- The whole number equal to `x`, if there is one. -/
def toInt? : Binary64 → Option Int
  | .finite negative m q =>
    let scale := twoTo (-q).toNat
    if m % scale = 0 then
      let n : Int := (m / scale * twoTo q.toNat : Nat)
      some (if negative then -n else n)
    else none
  | _ => none

end Binary64

end GeoLint
