import GeoLint.EditDistance
import GeoLint.Rule.Basic

/-!
# Unknown commands

Reports every statement whose command is not in the catalogue, with the names of similar
commands.  A statement with a single argument that is no nested command counts as an assignment
and is passed over, because that is what `A = (1, 2)` looks like in the tree.
-/

namespace GeoLint

/-- The expression is a nested command. -/
def Expr.isCall : Expr → Bool
  | .call .. => true
  | _ => false

/-- The statement has the shape of an assignment. -/
def Statement.isPlainAssignment (s : Statement) : Bool :=
  match s.arguments with
  | [e] => !e.isCall
  | _ => false

namespace UnknownCommand

/-- What there is to report about a statement. -/
def check (ctx : Context) (s : Statement) : List Finding :=
  if s.isPlainAssignment || ctx.catalogue.knows s.command.text then []
  else
    let name := s.command.text
    [ctx.report (.name s.command) s!"Unknown command \"{name}\""
      (EditDistance.similar name ctx.catalogue.names EditDistance.maxDistance)]

/-- The rule. -/
def rule : Rule where
  id := "no-unknown-command"
  severity := .error
  category := "error"
  description := "Detects commands that do not exist in GeoGebra"
  create ctx := .ok ([], { enterStatement := fun s => .ok (check ctx s) })

end UnknownCommand

end GeoLint
