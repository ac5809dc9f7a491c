import GeoLint.Decimal.Basic
import GeoLint.Text.Blank

/-!
# Whole numbers in texts

`Decimal.readWhole` reads the whole number that a text spells, in a lenient notation.  A strict
numeral is a minus or nothing, and digits of which the first is no zero unless it is the only one
(`readStrict`).  The lenient notation is brought to that form in steps: the space around it goes,
then a plus, leading zeros, a fraction of zeros, and single underscores.

A minus may stand in front of leading zeros or behind them, but not in both places.
-/

namespace GeoLint

namespace Decimal

/-- Why a text spells no whole number. -/
inductive WholeFault where
  /-- It is no numeral. -/
  | notNumeral
  /-- It has too many digits to be converted. -/
  | tooLong
deriving DecidableEq, Repr

/-- Numerals of more digits than this are not converted. -/
def maxLength : Nat := 4300

/-- White space around a numeral.  The information separators are not taken for it. -/
def isMargin (c : Char) : Bool :=
  Text.isBlank c && !(0x1C ≤ c.toNat && c.toNat ≤ 0x1F)

/-- The text without a plus in front.  A plus and a minus together are no sign. -/
def dropPlus? : List Char → Option (List Char)
  | '+' :: '-' :: _ => none
  | '+' :: cs => some cs
  | cs => some cs

/-- The text without leading zeros and the underscores between them.  The last of them stays if
a point follows, or nothing.  Nothing but digits, a minus or a point may come next. -/
def skipZeros? : List Char → Option (List Char)
  | [] => none
  | '0' :: cs =>
    let zeros := cs.takeWhile fun c => c = '0' || c = '_'
    let last := zeros.getLastD '0'
    match cs.drop zeros.length with
    | [] => some [last]
    | '.' :: rest => some (last :: '.' :: rest)
    | c :: rest => if isDigit c || c = '-' then some (c :: rest) else none
  | c :: cs => if isDigit c || c = '-' then some (c :: cs) else none

/-- The text without leading zeros, which may have a minus in front or behind.  What stands behind a
minus is held to the same rule as a text without one, and brings no second minus. -/
def dropZeros? : List Char → Option (List Char)
  | '-' :: cs =>
    match skipZeros? cs with
    | some ('-' :: _) => none
    | rest => rest.map ('-' :: ·)
  | cs => skipZeros? cs

/-- The text without a point and the zeros behind it, of which there is at least one. -/
def dropZeroFraction (cs : List Char) : List Char :=
  let whole := cs.takeWhile (· ≠ '.')
  let fraction := cs.drop (whole.length + 1)
  if !fraction.isEmpty && fraction.all (· = '0') then whole else cs

/-- The text without its underscores, if they all stand alone and inside. -/
def dropUnderscores (cs : List Char) : List Char :=
  let parts := Text.pieces (· = '_') cs
  if parts.all fun p => !p.isEmpty then parts.flatten else cs

/-- The whole number of a strict numeral. -/
def readStrict (cs : List Char) : Except WholeFault Int :=
  let negative := cs.head? = some '-'
  let body := if negative then cs.drop 1 else cs
  let ds := body.takeWhile isDigit
  if ds.isEmpty || (ds.head? = some '0' && 1 < ds.length) then .error .notNumeral
  else if maxLength < ds.length then .error .tooLong
  else if ds.length < body.length then .error .notNumeral
  else .ok (if negative then -(ofDigits ds : Int) else ofDigits ds)

/-- The whole number that a text spells. -/
def readWhole (cs : List Char) : Except WholeFault Int :=
  match (dropPlus? (Text.trimWhile isMargin cs)).bind dropZeros? with
  | none => .error .notNumeral
  | some cs => readStrict (dropUnderscores (dropZeroFraction cs))

end Decimal

end GeoLint
