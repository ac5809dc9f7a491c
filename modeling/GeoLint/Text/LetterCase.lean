import GeoLint.Text.CaseTable
import GeoLint.Text.Ranges

/-!
# Lower case

The lower case of a text, in every script that has case.  A capital becomes its small letter, and
the dotted capital I an i with a dot above it.  The only letter that looks at its surroundings is
the Greek capital sigma, which has a form of its own at the end of a word.
-/

namespace GeoLint

namespace Text

/-- The small letter of a capital, and any other character unchanged. -/
def lowerChar (c : Char) : List Char :=
  if c = 'İ' then ['i', Char.ofNat 0x307]
  else
    match capitals.find? (·.holds c.toNat) with
    | some r => [Char.ofNat (c.toNat + r.shift).toNat]
    | none => [c]

/-- The character is looked through when the end of a word is sought. -/
def isCaseIgnorable (c : Char) : Bool :=
  inRanges caseIgnorableRanges c

/-- The next character that is not looked through has case. -/
def leadsToCased (cs : List Char) : Bool :=
  match cs.dropWhile isCaseIgnorable with
  | [] => false
  | c :: _ => inRanges casedRanges c

/-- Lower case of `rest`, with the text before it given backwards. -/
def lowerFrom : List Char → List Char → List Char
  | _, [] => []
  | before, c :: rest =>
    let small :=
      if c = 'Σ' && leadsToCased before && !leadsToCased rest then ['ς'] else lowerChar c
    small ++ lowerFrom (c :: before) rest

/-- The text in lower case. -/
def lower (s : String) : String :=
  String.ofList (lowerFrom [] s.toList)

end Text

end GeoLint
