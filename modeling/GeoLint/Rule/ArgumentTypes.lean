import GeoLint.Rule.Basic

/-!
# Argument counts and types

Holds each statement against the overload that fits its number of arguments best.  The number of
arguments is reported with the severity of the rule; an argument whose type does not fit is
always a warning, because only the types of literals are known before a script runs.
-/

namespace GeoLint

/-- The type of an argument, as far as it can be told from the script. -/
def Expr.inferredType : Expr → String
  | .number .. => "Number"
  | .text .. => "String"
  | .truth .. => "Boolean"
  | .name _ | .call .. => "Object"
  | .list .. => "List"
  | .tuple .. => "Unknown"

namespace ArgumentTypes

/-- `part` occurs in `cs`. -/
def occurs (part : List Char) : List Char → Bool
  | [] => part.isEmpty
  | c :: cs => part.isPrefixOf (c :: cs) || occurs part cs

/-- An argument of type `actual` fits a slot of type `expected`.  An object can be anything when
the script runs, and anything but a tuple can be an object; a type that speaks of numbers takes
numbers; texts and strings are one. -/
def compatible (actual expected : String) : Bool :=
  actual = expected || actual = "Object" || (expected = "Object" && actual ≠ "Unknown") ||
    expected = "any" || (occurs "Number".toList expected.toList && actual = "Number") ||
    (actual = "Text" && expected = "String") || (actual = "String" && expected = "Text")

/-- The argument fits the slot. -/
def fits (arg : Expr) (slot : Parameter) : Bool :=
  slot.accepted.any (compatible arg.inferredType)

/-- What there is to report about the number of arguments. -/
def checkCount (ctx : Context) (s : Statement) (o : Overload) : List Finding :=
  let count := s.arguments.length
  if o.required ≤ count && count ≤ o.total then []
  else
    let name := s.command.text
    [ctx.report (.name s.command)
      s!"Command \"{name}\" expects {o.total} argument(s) but got {count}"
      [s!"Expected signature: {o.signature}", o.description]]

/-- What there is to report about argument `index`, counted from zero. -/
def checkArgument (ctx : Context) (s : Statement) (index : Nat) (arg : Expr) (slot : Parameter) :
    List Finding :=
  if fits arg slot then []
  else
    let name := s.command.text
    [ctx.reportAs (some .warning) (.expr arg)
      (s!"Argument {index + 1} of \"{name}\" has the wrong type: " ++
        s!"expected {slot.type}, got {arg.inferredType}")
      [s!"This argument should be of type {slot.type}"]]

/-- What there is to report about the arguments that have a slot, counted from `index`. -/
def checkTypes (ctx : Context) (s : Statement) : Nat → List Expr → List Parameter → List Finding
  | index, arg :: args, slot :: slots =>
    checkArgument ctx s index arg slot ++ checkTypes ctx s (index + 1) args slots
  | _, _, _ => []

/-- What there is to report about a statement. -/
def check (ctx : Context) (s : Statement) : List Finding :=
  match ctx.catalogue.bestMatch? s.command.text s.arguments.length with
  | none => []
  | some o => checkCount ctx s o ++ checkTypes ctx s 0 s.arguments o.parameters

/-- The rule. -/
def rule : Rule where
  id := "correct-arg-types"
  severity := .warning
  description := "Checks that command arguments match the command signature"
  create ctx := .ok ([], { enterStatement := fun s => .ok (check ctx s) })

end ArgumentTypes

end GeoLint
