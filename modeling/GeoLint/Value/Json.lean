import GeoLint.Value.Basic

/-!
# Reading written trees

`Value.parseJson` reads one tree and refuses anything after it.  Beyond the usual notation it
takes the three words `NaN`, `Infinity` and `-Infinity` for numbers.  A key written twice has
its last value.  The reader runs on fuel, which the length of the text bounds.
-/

namespace GeoLint

namespace Value

namespace Json

/-- The text after any spaces, tabs and line ends. -/
def skipSpace (cs : List Char) : List Char :=
  cs.dropWhile fun c => c = ' ' || c = '\t' || c = '\n' || c = '\r'

/-- The character an escape of one letter stands for. -/
def escape? (c : Char) : Option Char :=
  if c = '\x22' || c = '\\' || c = '/' then some c
  else if c = 'b' then some '\x08'
  else if c = 'f' then some '\x0c'
  else if c = 'n' then some '\n'
  else if c = 'r' then some '\r'
  else if c = 't' then some '\t'
  else none

/-- The code units of a text up to its closing quote, and what follows the quote. -/
def units : List Char → Except Fault (List Nat × List Char)
  | [] => .error .malformed
  | '\x22' :: rest => .ok ([], rest)
  | '\\' :: 'u' :: a :: b :: c :: d :: rest => do
    let some n := hexNumber? [a, b, c, d] | .error .malformed
    let (more, rest) ← units rest
    return (n :: more, rest)
  | '\\' :: e :: rest => do
    let some c := escape? e | .error .malformed
    let (more, rest) ← units rest
    return (c.toNat :: more, rest)
  | c :: rest => do
    if c.toNat < 0x20 || c = '\\' then .error .malformed
    else
      let (more, rest) ← units rest
      return (c.toNat :: more, rest)

/-- The characters of code units: a high and a low surrogate make one character, and a surrogate
that stands alone becomes the replacement character. -/
def joinUnits : List Nat → List Char
  | [] => []
  | [n] => [if n.isValidChar then Char.ofNat n else '\uFFFD']
  | n :: m :: rest =>
    if 0xD800 ≤ n && n < 0xDC00 && 0xDC00 ≤ m && m < 0xE000 then
      Char.ofNat (0x10000 + (n - 0xD800) * 0x400 + (m - 0xDC00)) :: joinUnits rest
    else (if n.isValidChar then Char.ofNat n else '\uFFFD') :: joinUnits (m :: rest)

/-- The rest of a text whose opening quote has been read. -/
def text (cs : List Char) : Except Fault (String × List Char) := do
  let (us, rest) ← units cs
  return (String.ofList (joinUnits us), rest)

/-- The digits of the whole part of a number: a zero alone, or digits that start with none. -/
def wholePart (cs : List Char) : Except Fault (List Char × List Char) :=
  match cs with
  | '0' :: rest => .ok (['0'], rest)
  | _ =>
    match cs.takeWhile Decimal.isDigit with
    | [] => .error .malformed
    | ds => .ok (ds, cs.dropWhile Decimal.isDigit)

/-- The point and digits of a number, if digits follow the point. -/
def fractionPart : List Char → List Char × List Char
  | '.' :: rest =>
    match rest.takeWhile Decimal.isDigit with
    | [] => ([], '.' :: rest)
    | ds => ('.' :: ds, rest.dropWhile Decimal.isDigit)
  | cs => ([], cs)

/-- The exponent of a number, if digits follow its mark and sign. -/
def exponentPart : List Char → List Char × List Char
  | [] => ([], [])
  | mark :: rest =>
    if mark = 'e' || mark = 'E' then
      let (sign, body) := match rest with
        | '+' :: body => (['+'], body)
        | '-' :: body => (['-'], body)
        | body => ([], body)
      match body.takeWhile Decimal.isDigit with
      | [] => ([], mark :: rest)
      | ds => (mark :: (sign ++ ds), body.dropWhile Decimal.isDigit)
    else ([], mark :: rest)

/-- A number, and what follows it.  Without point and exponent it is whole. -/
def number (cs : List Char) : Except Fault (Value × List Char) := do
  let (sign, body) := match cs with
    | '-' :: body => (['-'], body)
    | body => ([], body)
  let (ds, rest) ← wholePart body
  let (fraction, rest) := fractionPart rest
  let (exponent, rest) := exponentPart rest
  if fraction.isEmpty && exponent.isEmpty then
    if maxDigits < ds.length then .error .tooManyDigits
    else
      let n : Int := Decimal.ofDigits ds
      return (.whole (if sign.isEmpty then n else -n), rest)
  else
    match Binary64.parse? (sign ++ ds ++ fraction ++ exponent) with
    | some x => return (.real x, rest)
    | none => .error .malformed

/-- What follows `word`, if the text starts with it. -/
def after? (word : String) (cs : List Char) : Option (List Char) :=
  if word.toList.isPrefixOf cs then some (cs.drop word.length) else none

/-- A word that stands for a value, or a number. -/
def wordOrNumber (cs : List Char) : Except Fault (Value × List Char) :=
  let words : List (String × Value) :=
    [("null", .null), ("true", .truth true), ("false", .truth false), ("NaN", .real .nan),
     ("Infinity", .real (.infinite false)), ("-Infinity", .real (.infinite true))]
  match words.findSome? fun w => (after? w.1 cs).map fun rest => (w.2, rest) with
  | some r => .ok r
  | none => number cs

mutual
/-- A value at the start of the text. -/
def value : Nat → List Char → Except Fault (Value × List Char)
  | 0, _ => .error .malformed
  | fuel + 1, cs =>
    match cs with
    | '\x22' :: rest => do
      let (s, rest) ← text rest
      return (.text s, rest)
    | '[' :: rest =>
      match skipSpace rest with
      | ']' :: rest => .ok (.list [], rest)
      | rest => do
        let (vs, rest) ← items fuel rest
        return (.list vs, rest)
    | '\x7b' :: rest =>
      match skipSpace rest with
      | '\x7d' :: rest => .ok (.table [], rest)
      | rest => do
        let (es, rest) ← entries fuel rest
        return (.table (Table.ofEntries es), rest)
    | cs => wordOrNumber cs

/-- The items of a list up to its closing bracket. -/
def items : Nat → List Char → Except Fault (List Value × List Char)
  | 0, _ => .error .malformed
  | fuel + 1, cs => do
    let (v, rest) ← value fuel cs
    match skipSpace rest with
    | ']' :: rest => return ([v], rest)
    | ',' :: rest =>
      let (vs, rest) ← items fuel (skipSpace rest)
      return (v :: vs, rest)
    | _ => .error .malformed

/-- The entries of a table up to its closing brace. -/
def entries : Nat → List Char → Except Fault (List (String × Value) × List Char)
  | 0, _ => .error .malformed
  | fuel + 1, cs =>
    match cs with
    | '\x22' :: rest => do
      let (key, rest) ← text rest
      match skipSpace rest with
      | ':' :: rest =>
        let (v, rest) ← value fuel (skipSpace rest)
        match skipSpace rest with
        | '\x7d' :: rest => return ([(key, v)], rest)
        | ',' :: rest =>
          let (es, rest) ← entries fuel (skipSpace rest)
          return ((key, v) :: es, rest)
        | _ => .error .malformed
      | _ => .error .malformed
    | _ => .error .malformed
end

end Json

/-- The one tree that a text holds. -/
def parseJson (s : String) : Except Fault Value := do
  let cs := s.toList
  let (v, rest) ← Json.value (2 * cs.length + 2) (Json.skipSpace cs)
  if (Json.skipSpace rest).isEmpty then return v else .error .malformed

end Value

end GeoLint
