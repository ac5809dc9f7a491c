import GeoLint.Decimal.Basic

/-!
# Text without styling

A terminal takes colours and cursor moves from control sequences in a text: an escape character,
an opening bracket, parameters, and a letter.  A text that does not go to a terminal is written
without them (`unstyled`).  An escape character that starts no such sequence is a character like
any other.
-/

namespace GeoLint

namespace Text

/-- The escape character. -/
def escapeChar : Char := Char.ofNat 0x1B

/-- Characters of the parameters of a control sequence. -/
def isStyleParameter (c : Char) : Bool :=
  c = ';' || c = '?' || Decimal.isDigit c

/-- The text behind the control sequence that starts here. -/
def afterStyling? : List Char → Option (List Char)
  | e :: '[' :: cs =>
    match cs.dropWhile isStyleParameter with
    | c :: rest => if e = escapeChar && c.isAlpha then some rest else none
    | [] => none
  | _ => none

theorem length_lt_of_afterStyling? {cs rest : List Char} (h : afterStyling? cs = some rest) :
    rest.length < cs.length := by
  unfold afterStyling? at h
  split at h
  · rename_i e cs
    split at h
    · rename_i c tail hd
      split at h
      · have hlen := (cs.dropWhile_sublist isStyleParameter).length_le
        rw [hd] at hlen
        simp only [List.length_cons] at hlen
        simp only [Option.some.injEq] at h
        subst h
        simp only [List.length_cons]
        omega
      · simp at h
    · simp at h
  · simp at h

/-- The text without its control sequences. -/
def unstyled (cs : List Char) : List Char :=
  match cs with
  | [] => []
  | c :: tail =>
    match _h : afterStyling? (c :: tail) with
    | some rest => unstyled rest
    | none => c :: unstyled tail
termination_by cs.length
decreasing_by
  · exact length_lt_of_afterStyling? _h
  · simp

end Text

end GeoLint
