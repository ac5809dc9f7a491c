import GeoLint.Syntax.Basic
import GeoLint.Validation

/-!
# Findings and diagnostics

A `Finding` is what a rule has to say about a node of a script.  A `Diagnostic` is the flat
record that other programs get: it can be written as data and read back.
-/

namespace GeoLint

/-- How bad a finding is. -/
inductive Severity where
  /-- The script must not run. -/
  | error
  /-- Something looks wrong. -/
  | warning
  /-- For information. -/
  | info
deriving DecidableEq, Repr

namespace Severity

/-- The name of a severity. -/
def label : Severity → String
  | .error => "error"
  | .warning => "warning"
  | .info => "info"

/-- The severity of a name. -/
def ofLabel? (s : String) : Option Severity :=
  [error, warning, info].find? fun v => v.label = s

/-- The mark of a severity in reports. -/
def icon : Severity → String
  | .error => "✗"
  | .warning => "⚠"
  | .info => "ℹ"

/-- The rank of a severity: what is worse ranks higher. -/
def rank : Severity → Nat
  | .error => 3
  | .warning => 2
  | .info => 1

/-- The check of a severity. -/
def ofValue : Value → Checked Severity
  | .text s =>
    match ofLabel? s with
    | some v => .ok v
    | none => .fail .notSeverity
  | _ => .fail .notSeverity

@[simp] theorem ofLabel?_label (v : Severity) : ofLabel? v.label = some v := by
  cases v <;> decide

end Severity

/-- What a rule, or the parser, has found. -/
structure Finding where
  /-- The rule. -/
  ruleId : String
  /-- The finding in words. -/
  message : String
  /-- How bad it is. -/
  severity : Severity
  /-- Where it is. -/
  span : Span
  /-- The node it is about, if there is a tree. -/
  node : Option Node
  /-- What could be written instead. -/
  suggestions : List String
deriving Repr

/-- A finding as other programs get it. -/
structure Diagnostic where
  /-- The line. -/
  line : Int
  /-- The column. -/
  column : Int
  /-- The finding in words. -/
  message : String
  /-- How bad it is. -/
  severity : Severity
  /-- The rule. -/
  ruleId : String
  /-- What could be written instead, if that was considered. -/
  suggestions : Option (List String)
deriving DecidableEq, Repr

namespace Diagnostic

/-- The diagnostic of a finding: where it starts, and suggestions if there are any. -/
def ofFinding (f : Finding) : Diagnostic where
  line := f.span.start.line
  column := f.span.start.column
  message := f.message
  severity := f.severity
  ruleId := f.ruleId
  suggestions := if f.suggestions.isEmpty then none else some f.suggestions

/-- The diagnostic as data. -/
def toValue (d : Diagnostic) : Value :=
  .table
    [("line", .whole d.line), ("column", .whole d.column), ("message", .text d.message),
     ("severity", .text d.severity.label), ("ruleId", .text d.ruleId),
     ("suggestions",
       match d.suggestions with
       | none => .null
       | some texts => .list (texts.map .text))]

/-- The check of a diagnostic.  The rule has two spellings, of which the first wins. -/
def ofValue : Value → Checked Diagnostic
  | .table t =>
    (Checked.both (Table.required t "line" [] Value.asWhole)
      (Checked.both (Table.required t "column" [] Value.asWhole)
        (Checked.both (Table.required t "message" [] Value.asText)
          (Checked.both (Table.required t "severity" [] Severity.ofValue)
            (Checked.both (Table.required t "ruleId" ["rule_id"] Value.asText)
              (Table.optional t "suggestions" none
                (Value.asOption (Value.asList Value.asText)))))))).map
      fun (line, column, message, severity, ruleId, suggestions) =>
        ⟨line, column, message, severity, ruleId, suggestions⟩
  | _ => .fail (.notRecord "LintError")

end Diagnostic

/-- How many diagnostics of each severity there are. -/
structure Stats where
  /-- The number of errors. -/
  errors : Nat
  /-- The number of warnings. -/
  warnings : Nat
  /-- The number of informations. -/
  infos : Nat
  /-- The number of all. -/
  total : Nat
deriving DecidableEq, Repr

/-- The statistics of a list of diagnostics. -/
def Stats.of (ds : List Diagnostic) : Stats where
  errors := ds.countP fun d => d.severity = .error
  warnings := ds.countP fun d => d.severity = .warning
  infos := ds.countP fun d => d.severity = .info
  total := ds.length

/-- There is an error. -/
def Stats.hasErrors (s : Stats) : Bool := 0 < s.errors

/-- There is a warning. -/
def Stats.hasWarnings (s : Stats) : Bool := 0 < s.warnings

end GeoLint
