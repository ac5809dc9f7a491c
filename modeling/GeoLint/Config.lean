import GeoLint.Diagnostic
import GeoLint.Text.LetterCase

/-!
# Rule settings

A configuration sets rules by name: to a level, or to a level with a table of options.  The
levels are `off` and the severities, in any letter case.  `Config.ofValue` reads a configuration
and refuses it for the first rule whose setting makes no sense; what is left is always
meaningful, so asking for a rule's severity or options cannot fail.

A configuration keeps its settings as they were written, too.  `Config.readSeverity` and
`Config.readOptions` read them a second time, without the checks of the first, and so they can fail
where a setting makes no sense.
-/

namespace GeoLint

/-- How a rule is set. -/
inductive Level where
  /-- The rule does not run. -/
  | off
  /-- The rule reports with this severity. -/
  | on (severity : Severity)
deriving DecidableEq, Repr

namespace Level

/-- The levels by name. -/
def named : List (String × Level) :=
  [("off", .off), ("warn", .on .warning), ("warning", .on .warning), ("error", .on .error),
   ("info", .on .info)]

/-- The level that a value spells. -/
def ofValue? : Value → Option Level
  | .text s => named.lookup (Text.lower s)
  | _ => none

/-- The severity a rule reports with; none if it does not run. -/
def severity? : Level → Option Severity
  | .off => none
  | .on s => some s

/-- The complaint about a value that spells no level.  If the value cannot be shown, the complaint
is about that. -/
def unknown (v : Value) : String :=
  if v.showable then
    s!"unknown rule level {v.shown}; expected one of " ++ ", ".intercalate (named.map Prod.fst)
  else
    s!"Exceeds the limit ({Value.maxDigits} digits) for integer string conversion; " ++
      "use sys.set_int_max_str_digits() to increase the limit"

end Level

/-- The setting of a rule. -/
structure Setting where
  /-- The level. -/
  level : Level
  /-- The options. -/
  options : Table
  /-- The setting as it was written. -/
  written : Value

namespace Setting

/-- Why a value is no setting. -/
inductive Fault where
  /-- It spells no level. -/
  | unknownLevel (v : Value)
  /-- A list that is empty or too long. -/
  | wrongLength
  /-- The first item of a list spells no level. -/
  | unknownFirst (v : Value)
  /-- The second item of a list is no table. -/
  | optionsNotTable

/-- The fault of the setting of rule `id` in words. -/
def Fault.message (id : String) : Fault → String
  | .unknownLevel v => s!"{id}: {Level.unknown v}"
  | .wrongLength => s!"{id}: expected [severity, options]"
  | .unknownFirst v => Level.unknown v
  | .optionsNotTable => s!"{id}: rule options must be a table"

/-- The setting that a value writes. -/
def ofValue (v : Value) : Except Fault Setting :=
  match v with
  | .list [l] =>
    match Level.ofValue? l with
    | some level => .ok ⟨level, [], v⟩
    | none => .error (.unknownFirst l)
  | .list [l, o] =>
    match Level.ofValue? l, o with
    | some level, .table options => .ok ⟨level, options, v⟩
    | some _, _ => .error .optionsNotTable
    | none, _ => .error (.unknownFirst l)
  | .list _ => .error .wrongLength
  | _ =>
    match Level.ofValue? v with
    | some level => .ok ⟨level, [], v⟩
    | none => .error (.unknownLevel v)

/-- The level of a setting as it is written.  Of a list only the first item counts. -/
def levelIn : Value → Except Fault Level
  | .list [] => .error .wrongLength
  | .list (l :: _) =>
    match Level.ofValue? l with
    | some level => .ok level
    | none => .error (.unknownFirst l)
  | v =>
    match Level.ofValue? v with
    | some level => .ok level
    | none => .error (.unknownLevel v)

/-- The options of a setting as it is written, which are the second item of a list.  Whatever else
stands there counts as a fault. -/
def optionsIn : Value → Except Fault Table
  | .list (_ :: .table options :: _) => .ok options
  | .list (_ :: _ :: _) => .error .optionsNotTable
  | _ => .ok []

/-- The setting of a rule that only runs at a severity. -/
def ofLevel (name : String) (s : Severity) : Setting :=
  ⟨.on s, [], .text name⟩

end Setting

/-- The settings of rules, in order. -/
structure Config where
  /-- The setting of each rule that has one. -/
  rules : List (String × Setting)

namespace Config

/-- No rule has a setting. -/
def empty : Config := ⟨[]⟩

/-- The built-in rules at their usual levels. -/
def standard : Config :=
  ⟨[("no-unknown-command", .ofLevel "error" .error),
    ("correct-arg-types", .ofLevel "warn" .warning)]⟩

/-- The settings of a table of rules, or the first fault. -/
def settings : Table → Except (String × Setting.Fault) (List (String × Setting))
  | [] => .ok []
  | (id, v) :: rest =>
    match Setting.ofValue v with
    | .error fault => .error (id, fault)
    | .ok s => (settings rest).map ((id, s) :: ·)

/-- The configuration of a table of rules. -/
def ofRules (rules : Table) : Checked Config :=
  match settings rules with
  | .ok ss => .ok ⟨ss⟩
  | .error (id, fault) => .error [⟨[.field "rules"], .refused (fault.message id)⟩]

/-- The configuration that data of any shape holds. -/
def ofValue : Value → Checked Config
  | .table t =>
    match Table.get? t "rules" with
    | none => .ok empty
    | some (.table rules) => ofRules rules
    | some _ => .error [⟨[.field "rules"], .notTable⟩]
  | _ => .fail (.notRecord "LintConfig")

/-- The rules as they were written. -/
def written (c : Config) : Table :=
  c.rules.map fun (id, s) => (id, s.written)

/-- The setting of a rule, if it has one. -/
def setting? (c : Config) (id : String) : Option Setting :=
  c.rules.lookup id

/-- The severity a rule reports with; none if it is off. -/
def severityFor (c : Config) (id : String) (default : Severity) : Option Severity :=
  match c.setting? id with
  | none => some default
  | some s => s.level.severity?

/-- The options of a rule. -/
def optionsFor (c : Config) (id : String) : Table :=
  match c.setting? id with
  | none => []
  | some s => s.options

/-- The severity a rule reports with, read from its setting as it was written. -/
def readSeverity (c : Config) (id : String) (default : Severity) :
    Except Setting.Fault (Option Severity) :=
  match c.written.get? id with
  | none => .ok (some default)
  | some v => (Setting.levelIn v).map Level.severity?

/-- The options of a rule, read from its setting as it was written. -/
def readOptions (c : Config) (id : String) : Except Setting.Fault Table :=
  match c.written.get? id with
  | none => .ok []
  | some v => Setting.optionsIn v

end Config

end GeoLint
