import GeoLint.Engine

/-!
# Reports

The texts in which findings and diagnostics are shown to people.
-/

namespace GeoLint

/-- The suggestions of a finding on a line of their own. -/
def suggestionLine (suggestions : List String) : String :=
  "   suggestions: " ++ ", ".intercalate suggestions

/-- A finding with its number. -/
def Finding.reportLines (number : Nat) (f : Finding) : List String :=
  [s!"{number}. {f.severity.icon} [{f.ruleId}] {f.message}",
    s!"   at line {f.span.start.line}, column {f.span.start.column}"] ++
    (if f.suggestions.isEmpty then [] else [suggestionLine f.suggestions])

/-- The report on a script: its file, the number of findings, and each finding. -/
def LintResult.report (r : LintResult) : String :=
  let header := match r.file with
    | some file => if file.isEmpty then [] else [s!"File: {file}"]
    | none => []
  let body :=
    if r.findings.isEmpty then ["✓ No problems found"]
    else
      s!"Found {r.count .error} error(s), {r.count .warning} warning(s):" :: "" ::
        (r.findings.mapIdx fun i f => f.reportLines (i + 1)).flatten
  "\n".intercalate (header ++ body)

/-- A diagnostic on a line, and its suggestions on another. -/
def Diagnostic.entry (d : Diagnostic) : String :=
  let head := s!"{d.severity.icon} [{d.ruleId}] {d.message}"
  match d.suggestions with
  | some (s :: ss) => head ++ "\n" ++ suggestionLine (s :: ss)
  | _ => head

/-- Diagnostics, one entry each. -/
def Diagnostic.list (ds : List Diagnostic) : String :=
  "\n".intercalate (ds.map Diagnostic.entry)

end GeoLint
