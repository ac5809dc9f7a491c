import GeoLint.Catalogue.Basic
import GeoLint.Diagnostic

/-!
# Rules

A rule looks at a script through a `Visitor`, whose callbacks are called when the walk through
the tree enters and leaves the script and each of its statements.  A callback gives the findings
it wants to report, or breaks off with a `Failure`, which ends the whole lint.

A `RuleTable` holds rules under their names, in the order in which each name first came.
-/

namespace GeoLint

/-- What a rule knows while a script is walked. -/
structure Context where
  /-- The name of the rule. -/
  ruleId : String
  /-- The severity it reports with. -/
  severity : Severity
  /-- Its options. -/
  options : Table
  /-- The script. -/
  script : Script
  /-- The text of the script. -/
  source : String
  /-- The known commands. -/
  catalogue : Catalogue

namespace Context

/-- A finding at a node; `override` replaces the severity of the rule. -/
def reportAs (ctx : Context) (override : Option Severity) (node : Node) (message : String)
    (suggestions : List String) : Finding where
  ruleId := ctx.ruleId
  message := message
  severity := override.getD ctx.severity
  span := node.span
  node := some node
  suggestions := suggestions

/-- A finding at a node, with the severity of the rule. -/
def report (ctx : Context) (node : Node) (message : String) (suggestions : List String) : Finding :=
  ctx.reportAs none node message suggestions

end Context

/-- A rule broke off. -/
structure Failure where
  /-- Why, in words. -/
  message : String
deriving DecidableEq, Repr

/-- The callbacks of a rule; one that is not given reports nothing. -/
structure Visitor where
  /-- The walk starts. -/
  enterScript : Script → Except Failure (List Finding) := fun _ => .ok []
  /-- A statement is reached. -/
  enterStatement : Statement → Except Failure (List Finding) := fun _ => .ok []
  /-- A statement has been walked. -/
  leaveStatement : Statement → Except Failure (List Finding) := fun _ => .ok []
  /-- The walk ends. -/
  leaveScript : Script → Except Failure (List Finding) := fun _ => .ok []

namespace Visitor

open Node (Visit)

/-- The callback for a step of the walk.  Expressions have none. -/
def handle (v : Visitor) : Visit → Except Failure (List Finding)
  | .enter (.script s) => v.enterScript s
  | .enter (.statement s) => v.enterStatement s
  | .leave (.statement s) => v.leaveStatement s
  | .leave (.script s) => v.leaveScript s
  | _ => .ok []

/-- The findings of a walk, in its order. -/
def walk (v : Visitor) : List Visit → Except Failure (List Finding)
  | [] => .ok []
  | step :: rest => do
    let found ← v.handle step
    let more ← walk v rest
    return found ++ more

end Visitor

/-- A rule. -/
structure Rule where
  /-- Its name. -/
  id : String
  /-- The severity it reports with, unless it is set otherwise. -/
  severity : Severity
  /-- What sort of rule it is. -/
  category : String := "warning"
  /-- Its findings can be mended automatically. -/
  fixable : Bool := false
  /-- What it looks for. -/
  description : String := ""
  /-- What it reports at once, and its callbacks for one script. -/
  create : Context → Except Failure (List Finding × Visitor)

/-- All findings of a rule in a script. -/
def Rule.run (r : Rule) (ctx : Context) : Except Failure (List Finding) := do
  let (first, visitor) ← r.create ctx
  let found ← visitor.walk ctx.script.tour
  return first ++ found

/-- Rules under their names. -/
structure RuleTable where
  /-- The rules, in order. -/
  rules : List Rule

namespace RuleTable

/-- No rules. -/
def empty : RuleTable := ⟨[]⟩

/-- A list with a rule in the place of the one of its name, or at the end. -/
def insertInto (r : Rule) : List Rule → List Rule
  | [] => [r]
  | s :: rest => if s.id = r.id then r :: rest else s :: insertInto r rest

/-- The table with one more rule; it takes the place of one of the same name. -/
def insert (t : RuleTable) (r : Rule) : RuleTable :=
  ⟨insertInto r t.rules⟩

/-- The table with more rules. -/
def insertAll (t : RuleTable) (rs : List Rule) : RuleTable :=
  rs.foldl insert t

/-- The rule of a name. -/
def find? (t : RuleTable) (id : String) : Option Rule :=
  t.rules.find? fun r => r.id = id

/-- The names of the rules. -/
def ids (t : RuleTable) : List String :=
  t.rules.map Rule.id

/-- The number of rules. -/
def size (t : RuleTable) : Nat :=
  t.rules.length

end RuleTable

end GeoLint
