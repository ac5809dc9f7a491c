import GeoLint.Text.Blank

/-!
# The notation of signatures

A signature writes the overloads of a command one after the other,

    SetValue( <Object>, <Object> ) | SetValue( <List>, <Number>, <Object> )
    SetLineStyle( <Object>, <Number 0|1|2|3|4> )
    SetColor( <Object>, <"Color"> )
    Sequence( <Expression>, <Variable>, ... )

A bar outside parentheses separates overloads (`branches`), a comma outside angle brackets
separates parameters (`slots`), and `Parameter.parse?` reads what stands in one slot.
-/

namespace GeoLint

/-- A slot of an overload. -/
structure Parameter where
  /-- The type the slot asks for. -/
  type : String
  /-- The slot may stay empty. -/
  optional : Bool := false
  /-- Further types or values the slot takes, if the notation lists any. -/
  alternatives : Option (List String) := none
deriving DecidableEq, Repr

/-- All types the slot takes. -/
def Parameter.accepted (p : Parameter) : List String :=
  p.type :: p.alternatives.getD []

namespace Signature

/-- Put a character in front of the first piece. -/
def grow (c : Char) : List (List Char) → List (List Char)
  | [] => [[c]]
  | w :: ws => (c :: w) :: ws

/-- The pieces without the last one, if `p` holds of it. -/
def dropLastIf (p : List Char → Bool) (ws : List (List Char)) : List (List Char) :=
  match ws.getLast? with
  | some w => if p w then ws.dropLast else ws
  | none => []

/-! ### Overloads -/

/-- The depth of parentheses behind a character.  A closing parenthesis that nothing opened does
not count. -/
def parenDepth (depth : Nat) (c : Char) : Nat :=
  if c = '(' then depth + 1 else if c = ')' then depth - 1 else depth

/-- The pieces between the bars outside parentheses, from `depth` open ones on. -/
def cutBars : Nat → List Char → List (List Char)
  | _, [] => [[]]
  | depth, c :: cs =>
    if c = '|' && depth = 0 then [] :: cutBars depth cs
    else grow c (cutBars (parenDepth depth c) cs)

/-- The overloads that a signature writes.  A blank piece at the end is none; a blank piece
anywhere else is. -/
def branches (cs : List Char) : List (List Char) :=
  dropLastIf Text.blank (cutBars 0 cs)

/-! ### Parameters -/

/-- Opening minus closing angle brackets behind a character. -/
def angleDepth (depth : Int) (c : Char) : Int :=
  if c = '<' then depth + 1 else if c = '>' then depth - 1 else depth

/-- The pieces between the commas outside angle brackets, from `depth` open ones on. -/
def cutCommas : Int → List Char → List (List Char)
  | _, [] => [[]]
  | depth, c :: cs =>
    if c = ',' && depth = 0 then [] :: cutCommas depth cs
    else grow c (cutCommas (angleDepth depth c) cs)

/-- What a parameter list writes in its slots.  An empty slot at the end is none. -/
def slots (cs : List Char) : List (List Char) :=
  dropLastIf List.isEmpty ((cutCommas 0 cs).map Text.trim)

/-- The parameter list of an overload: what stands between a parenthesis and the first one that
closes anything, both on one line. -/
def parameterList? : List Char → Option (List Char)
  | [] => none
  | c :: cs =>
    let inner := cs.takeWhile fun d => d ≠ ')' && d ≠ '\n'
    if c = '(' && (cs.drop inner.length).head? = some ')' then some inner
    else parameterList? cs

/-- The text is in double quotes, on one line. -/
def isQuoted : List Char → Bool
  | '\x22' :: cs => cs.getLast? = some '\x22' && !cs.contains '\n'
  | _ => false

/-- The texts between bars that are not empty. -/
def options (cs : List Char) : List String :=
  (Text.fullPieces (· = '|') cs).map String.ofList

end Signature

/-- What a slot asks for; none if nothing is written in it. -/
def Parameter.parse? (cs : List Char) : Option Parameter :=
  if cs = "...".toList then some { type := "any", optional := true }
  else
    let cleaned := Text.trim (cs.filter fun c => c ≠ '<' && c ≠ '>')
    if cleaned.isEmpty then none
    else if Signature.isQuoted cleaned then some { type := "String" }
    else if cleaned.contains '|' then
      match Text.words cleaned with
      | type :: value :: values =>
        -- a type, then the values it may have
        some { type := String.ofList type
               alternatives := some ((value :: values).flatMap Signature.options) }
      | _ =>
        match Signature.options cleaned with
        | [] => none
        | type :: others => some { type := type, alternatives := some others }
    else some { type := String.ofList cleaned }

/-- The parameters of an overload. -/
def Signature.parameters (branch : List Char) : List Parameter :=
  match Signature.parameterList? branch with
  | none => []
  | some inner => (Signature.slots inner).filterMap Parameter.parse?

end GeoLint
