import GeoLint.Decimal.Whole
import GeoLint.Value.Basic

/-!
# Checking data

A record that comes from outside is checked field by field.  All that is wrong with it is
collected, in the order of the fields; each `Issue` has the path to the offending place.
-/

namespace GeoLint

/-- A step on the path into a data tree. -/
inductive PathStep where
  /-- Into a field of a table. -/
  | field (name : String)
  /-- To an item of a list, or to a key that is a number. -/
  | index (i : Int)
deriving DecidableEq, Repr

/-- What is wrong with a value. -/
inductive Flaw where
  /-- A required field is not there. -/
  | missing
  /-- Not a text. -/
  | notText
  /-- An empty text where one is not allowed. -/
  | emptyText
  /-- Not a list. -/
  | notList
  /-- Not a table. -/
  | notTable
  /-- Not a table that could be a record of the named model. -/
  | notRecord (model : String)
  /-- Not a severity. -/
  | notSeverity
  /-- Not a whole number, nor anything that stands for one. -/
  | notWhole
  /-- A text that spells no whole number. -/
  | notNumeral
  /-- A number with a fraction. -/
  | fractional
  /-- A number beyond the range of whole numbers. -/
  | tooLarge
  /-- An infinity, or no number at all. -/
  | notFinite
  /-- Refused by a rule of its own. -/
  | refused (reason : String)
deriving DecidableEq, Repr

namespace Flaw

/-- The code of a flaw. -/
def code : Flaw → String
  | .missing => "missing"
  | .notText => "string_type"
  | .emptyText => "string_too_short"
  | .notList => "list_type"
  | .notTable => "dict_type"
  | .notRecord _ => "model_type"
  | .notSeverity => "enum"
  | .notWhole => "int_type"
  | .notNumeral => "int_parsing"
  | .fractional => "int_from_float"
  | .tooLarge => "int_parsing_size"
  | .notFinite => "finite_number"
  | .refused _ => "value_error"

/-- The flaw in words. -/
def message : Flaw → String
  | .missing => "Field required"
  | .notText => "Input should be a valid string"
  | .emptyText => "String should have at least 1 character"
  | .notList => "Input should be a valid list"
  | .notTable => "Input should be a valid dictionary"
  | .notRecord model => s!"Input should be a valid dictionary or instance of {model}"
  | .notSeverity => "Input should be 'error', 'warning' or 'info'"
  | .notWhole => "Input should be a valid integer"
  | .notNumeral => "Input should be a valid integer, unable to parse string as an integer"
  | .fractional => "Input should be a valid integer, got a number with a fractional part"
  | .tooLarge => "Unable to parse input string as an integer, exceeded maximum size"
  | .notFinite => "Input should be a finite number"
  | .refused reason => "Value error, " ++ reason

end Flaw

/-- A flaw and where it is. -/
structure Issue where
  /-- The way to the offending value. -/
  path : List PathStep
  /-- What is wrong with it. -/
  flaw : Flaw
deriving DecidableEq, Repr

/-- A checked value, or all that is wrong. -/
abbrev Checked (α : Type) := Except (List Issue) α

namespace Checked

/-- A single flaw at the value itself. -/
def fail {α : Type} (flaw : Flaw) : Checked α :=
  .error [⟨[], flaw⟩]

/-- The check of what lies one step down. -/
def under {α : Type} (step : PathStep) : Checked α → Checked α
  | .ok a => .ok a
  | .error issues => .error (issues.map fun i => ⟨step :: i.path, i.flaw⟩)

/-- Two checks, with the issues of both. -/
def both {α β : Type} : Checked α → Checked β → Checked (α × β)
  | .ok a, .ok b => .ok (a, b)
  | .ok _, .error e => .error e
  | .error e, .ok _ => .error e
  | .error e, .error f => .error (e ++ f)

/-- A check for each of a list, with the issues of all. -/
def all {α : Type} : List (Checked α) → Checked (List α)
  | [] => .ok []
  | c :: cs => (both c (all cs)).map fun p => p.1 :: p.2

end Checked

namespace Value

/-- The value is a text. -/
def asText : Value → Checked String
  | .text s => .ok s
  | _ => .fail .notText

/-- The value is a text with at least one character. -/
def asFullText (v : Value) : Checked String :=
  match v.asText with
  | .ok s => if s.isEmpty then .fail .emptyText else .ok s
  | .error e => .error e

/-- The value is a list whose items pass a check. -/
def asList {α : Type} (check : Value → Checked α) : Value → Checked (List α)
  | .list items =>
    .all (items.mapIdx fun i v => Checked.under (.index i) (check v))
  | _ => .fail .notList

/-- The value is nothing, or passes a check. -/
def asOption {α : Type} (check : Value → Checked α) : Value → Checked (Option α)
  | .null => .ok none
  | v => (check v).map some

/-! ### Whole numbers -/

/-- The value is a whole number, or stands for one. -/
def asWhole : Value → Checked Int
  | .whole n => .ok n
  | .truth b => .ok (if b then 1 else 0)
  | .real x =>
    match x, x.toInt? with
    | .finite .., some n => if n.natAbs < Binary64.twoTo 63 then .ok n else .fail .tooLarge
    | .finite .., none => .fail .fractional
    | _, _ => .fail .notFinite
  | .text s =>
    match Decimal.readWhole s.toList with
    | .ok n => .ok n
    | .error .notNumeral => .fail .notNumeral
    | .error .tooLong => .fail .tooLarge
  | _ => .fail .notWhole

end Value

namespace Table

/-- A field that has to be there, under the first of its names that is. -/
def required {α : Type} (t : Table) (name : String) (others : List String)
    (check : Value → Checked α) : Checked α :=
  match (name :: others).findSome? fun n => (t.get? n).map (n, ·) with
  | some (n, v) => Checked.under (.field n) (check v)
  | none => .error [⟨[.field name], .missing⟩]

/-- A field with a value for when it is not there. -/
def optional {α : Type} (t : Table) (name : String) (default : α) (check : Value → Checked α) :
    Checked α :=
  match t.get? name with
  | some v => Checked.under (.field name) (check v)
  | none => .ok default

end Table

end GeoLint
