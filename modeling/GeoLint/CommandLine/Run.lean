import GeoLint.CommandLine.Arguments
import GeoLint.ConfigFile
import GeoLint.FileTree
import GeoLint.Report
import GeoLint.Syntax.Dump
import GeoLint.Text.Styling
import GeoLint.Transcript

/-!
# Running command lines

`CommandLine.run` answers a command line: what is printed, and the exit code.  The file system is
a function from paths to entries, so that a run depends on nothing else.

A lint exits with 1 if any script has an error, whether or not its findings are shown, and with 2
if the arguments or the settings make no sense.
-/

namespace GeoLint

namespace CommandLine

/-- What a run prints, and its exit code. -/
structure Outcome where
  /-- The exit code. -/
  exitCode : Nat
  /-- What goes to the standard output. -/
  output : String
  /-- What goes to the standard error. -/
  errors : String
deriving DecidableEq, Repr

/-- Why a run broke off. -/
inductive Crash where
  /-- A path holds the null character, so that there can be nothing there. -/
  | nullInPath
  /-- A file to lint is no text. -/
  | notUnicode (path : String)
  /-- The configuration file has the wrong shape. -/
  | config (m : ConfigFile.Misfit)
  /-- A rule broke off. -/
  | rule (f : Failure)
deriving DecidableEq, Repr

/-- The crash in words. -/
def Crash.message : Crash → String
  | .nullInPath => "a path holds a null character"
  | .notUnicode path => s!"{path} is not a text file"
  | .config .notUnicode => "the configuration file is not a text file"
  | .config .numberTooLong => "a number in the configuration file is too long"
  | .config .notTable => "tool.ggb-lint in the configuration file is not a table"
  | .config .notPairs => "the rules in the configuration file are not pairs"
  | .config .notTwoParts => "a rule in the configuration file is not a pair"
  | .rule f => s!"a rule failed: {f.message}"

/-- Lines with their ends, and without styling. -/
def printed (lines : List String) : String :=
  String.join (lines.map fun l => String.ofList (Text.unstyled l.toList) ++ "\n")

/-- A run that prints lines and exits with 0. -/
def success (lines : List String) : Outcome := ⟨0, printed lines, ""⟩

/-- The outcome of arguments or settings that make no sense. -/
def misuse : Outcome := ⟨2, "", ""⟩

/-! ### Tokens, trees and commands -/

/-- A text with spaces behind it up to a width. -/
def padded (width : Nat) (s : String) : String :=
  s ++ String.ofList (List.replicate (width - s.length) ' ')

/-- A token with its number. -/
def tokenLine (index : Nat) (t : Token) : String :=
  s!"[{index}] {padded 12 t.kind.label} {Text.quoted t.text} at " ++
    s!"{t.position.line}:{t.position.column}"

/-- The tokens of a script but for line ends, numbered with them. -/
def tokens (source : String) : Outcome :=
  let shown := (Token.tokenize source).zipIdx.filter fun (t, _) =>
    t.kind ≠ .newline && t.kind ≠ .ending
  success (shown.map fun (t, i) => tokenLine i t)

/-- The tree of a script. -/
def tree (source : String) : Outcome :=
  match Script.parse source with
  | .ok script => success [script.dump.indented]
  | .error e => ⟨1, "", printed [e.message]⟩

/-- A command and its overloads. -/
def commandLines (c : Catalogue) (name : String) : List String :=
  let overloads := (c.overloads? name).getD []
  (name ++ ": " ++ (c.description? name).getD "") ::
    overloads.flatMap fun o =>
      s!"    {o.signature}" :: if o.parameters.isEmpty then [] else [s!"      {o.describe}"]

/-- The commands whose names start so, whatever the case of their letters. -/
def commands (c : Catalogue) (start : String) : Outcome :=
  let wanted := (Text.lower start).toList
  let names := c.names.filter fun n => wanted.isPrefixOf (Text.lower n).toList
  let sorted := names.mergeSort fun a b => !decide (b < a)
  success (sorted.flatMap (commandLines c) ++ ["", s!"{names.length} command(s)"])

/-! ### Linting -/

/-- A script with the name it is reported under. -/
structure Source where
  /-- The name. -/
  name : String
  /-- The text. -/
  text : String
deriving DecidableEq, Repr

/-- The rank below which nothing is shown.  A severity that is not known ranks lowest. -/
def rankOf (severity : String) : Nat :=
  let ranks := [("error", 3), ("warning", 2), ("warn", 2), ("info", 1)]
  (ranks.lookup (Text.lower severity)).getD 1

/-- The text of a file to lint. -/
def readText (path : String) (content : ByteArray) : Except Crash Source :=
  match String.fromUTF8? content with
  | some s => .ok ⟨Path.normal path, String.ofList (Text.unifyNewlines s.toList)⟩
  | none => .error (.notUnicode path)

/-- The texts of files to lint. -/
def readTexts : List (String × ByteArray) → Except Crash (List Source)
  | [] => .ok []
  | (path, content) :: rest => do
    let source ← readText path content
    let more ← readTexts rest
    return source :: more

/-- The path holds the null character. -/
def hasNull (path : String) : Bool :=
  path.toList.contains (Char.ofNat 0)

/-- The files of a request, or none if one of them is no file.  A path is followed as it is shown,
so what a slash or a dot at its end would ask for does not matter. -/
def files? (look : String → Entry) :
    List String → Except Crash (Option (List (String × ByteArray)))
  | [] => .ok (some [])
  | path :: rest =>
    if hasNull path then .error .nullInPath
    else
      match look (Path.normal path) with
      | .file content => (files? look rest).map fun more => more.map ((path, content) :: ·)
      | _ => .ok none

/-- The commands in a chat text, each with its number behind the name of the text. -/
def Source.extracted (s : Source) : List Source :=
  (Transcript.commands s.text).mapIdx fun i text => ⟨s!"{s.name}#{i}", text⟩

/-- A severity in capitals. -/
def capitals (s : Severity) : String :=
  String.ofList (s.label.toList.map Char.toUpper)

/-- A diagnostic, and its suggestions if there are any. -/
def diagnosticLines (name : String) (d : Diagnostic) : List String :=
  s!"{capitals d.severity}: {name}:{d.line}:{d.column} [{d.ruleId}] {d.message}" ::
    match d.suggestions with
    | some (s :: ss) => ["    suggestions: " ++ ", ".intercalate (s :: ss)]
    | _ => []

/-- What a lint has counted and printed so far. -/
structure Tally where
  /-- How many diagnostics there are. -/
  total : Nat := 0
  /-- How many of them are errors. -/
  errors : Nat := 0
  /-- How many of them are shown. -/
  reported : Nat := 0
  /-- The lines that show them. -/
  lines : List String := []

/-- Count a diagnostic of a script, and show it unless it ranks too low. -/
def Tally.add (minRank : Nat) (t : Tally) (name : String) (d : Diagnostic) : Tally :=
  let errors := if d.severity = .error then t.errors + 1 else t.errors
  let counted := { t with total := t.total + 1, errors := errors }
  if d.severity.rank < minRank then counted
  else
    { counted with
      reported := counted.reported + 1
      lines := counted.lines ++ diagnosticLines name d }

/-- Count and show what there is in scripts, one after the other. -/
def tally (engine : Engine) (minRank : Nat) : Tally → List Source → Except Failure Tally
  | t, [] => .ok t
  | t, s :: rest => do
    let result ← (engine.lint s.text (some s.name)).value
    let found := result.findings.map Diagnostic.ofFinding
    tally engine minRank (found.foldl (fun t d => t.add minRank s.name d) t) rest

/-- The outcome of a lint, when all is counted. -/
def Tally.outcome (t : Tally) : Outcome :=
  let lines := t.lines ++ ["", s!"Total issues found: {t.total} ({t.reported} reported)"]
  ⟨if 0 < t.errors then 1 else 0, printed lines, ""⟩

/-- Lint scripts. -/
def lintSources (config : Config) (o : LintOptions) (sources : List Source) :
    Except Crash Outcome :=
  let sources := if o.extract then sources.flatMap Source.extracted else sources
  match tally (RuleTable.builtin.engine (some config)).value (rankOf o.severity) {} sources with
  | .ok t => .ok t.outcome
  | .error failure => .error (.rule failure)

/-- What there is at the path of the configuration file. -/
def configSource (look : String → Entry) (path : String) : ConfigFile.Source :=
  match look (Path.normal path) with
  | .missing => .missing
  | .directory => .unreadable
  | .file content => .file content

/-- The scripts of a request, the one given as an argument first. -/
def sourcesOf (o : LintOptions) (texts : List Source) : List Source :=
  match o.command with
  | some text => ⟨"<command>", text⟩ :: texts
  | none => texts

/-- Lint files with the settings of a file.  The settings are read before the scripts. -/
def lintFiles (look : String → Entry) (o : LintOptions) (files : List (String × ByteArray)) :
    Except Crash Outcome :=
  match ConfigFile.load (configSource look o.config) with
  | .error (.misfit m) => .error (.config m)
  | .error (.invalid _) => .ok misuse
  | .ok loaded => do
    match sourcesOf o (← readTexts files) with
    | [] => return ⟨1, printed ["Error: Provide files or use --command"], ""⟩
    | sources => lintSources loaded.config o sources

/-- Answer a request to lint. -/
def lint (look : String → Entry) (o : LintOptions) : Except Crash Outcome := do
  if hasNull o.config then .error .nullInPath
  else
    match ← files? look o.files with
    | none => return misuse
    | some files => lintFiles look o files

/-- Answer a request. -/
def answer (look : String → Entry) : Request → Except Crash Outcome
  | .lint o => lint look o
  | .tokens source => .ok (tokens source)
  | .tree source => .ok (tree source)
  | .commands start => .ok (commands .bundled start)

/-- Answer a command line. -/
def run (look : String → Entry) (args : List String) : Except Crash Outcome :=
  match parse args with
  | .error _ => .ok misuse
  | .ok request => answer look request

/-- The paths that a request looks at. -/
def Request.paths : Request → List String
  | .lint o => (o.config :: o.files).map Path.normal
  | _ => []

end CommandLine

end GeoLint
