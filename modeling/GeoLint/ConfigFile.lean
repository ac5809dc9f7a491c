import GeoLint.Config
import GeoLint.Value.Toml

/-!
# Configuration files

A configuration file sets rules in the table `tool.ggb-lint.rules` of a document.  The settings
are laid over the standard configuration.  A file that is missing, or is no document, counts as
one that sets nothing.

The rules are usually a table, but anything that lists pairs of a name and a setting is taken as
well: a list of such pairs, where a pair is a list of two items, a text of two characters or a
table of two keys.
-/

namespace GeoLint

namespace ConfigFile

/-- Why a file gives no configuration, beyond settings that make no sense. -/
inductive Misfit where
  /-- The bytes are no text. -/
  | notUnicode
  /-- A number of the text is too long to be converted. -/
  | numberTooLong
  /-- A table was needed on the way to the rules. -/
  | notTable
  /-- The rules, or one of them, cannot be listed as pairs. -/
  | notPairs
  /-- One of the rules has more or fewer than two parts. -/
  | notTwoParts
deriving DecidableEq, Repr

/-- Why a file gives no configuration. -/
inductive Fault where
  /-- The file has the wrong shape. -/
  | misfit (m : Misfit)
  /-- A setting makes no sense. -/
  | invalid (issues : List Issue)

/-- The name of a rule; other plain values can stand in its place but are refused later. -/
inductive Key where
  /-- A name. -/
  | name (s : String)
  /-- A whole number, or a truth value, which counts as one or zero. -/
  | whole (n : Int)
  /-- A number of double precision. -/
  | real (x : Binary64)
  /-- A date or a time. -/
  | moment (m : Moment)
deriving DecidableEq, Repr

/-- The key that a value stands for. -/
def Key.ofValue? : Value → Option Key
  | .text s => some (.name s)
  | .whole n => some (.whole n)
  | .truth b => some (.whole (if b then 1 else 0))
  | .real x => some (.real x)
  | .moment m => some (.moment m)
  | _ => none

/-- The keys set the same rule.  Numbers do if they are equal, whatever their kind; what is no
number at all equals nothing. -/
def Key.same : Key → Key → Bool
  | .whole n, .real x | .real x, .whole n => x.toInt? = some n
  | .real x, .real y => x ≠ .nan && (x = y || (x.toInt?.isSome && x.toInt? = y.toInt?))
  | a, b => a = b

/-- The parts of a value that can be listed. -/
def parts? : Value → Option (List Value)
  | .list items => some items
  | .text s => some (s.toList.map fun c => .text (String.singleton c))
  | .table fields => some (fields.map fun f => .text f.1)
  | _ => none

/-- A rule written as a pair. -/
def pair (v : Value) : Except Misfit (Key × Value) :=
  match parts? v with
  | none => .error .notPairs
  | some [k, setting] =>
    match Key.ofValue? k with
    | some key => .ok (key, setting)
    | none => .error .notPairs
  | some _ => .error .notTwoParts

/-- The rules written as pairs, one after the other. -/
def pairs : List Value → Except Misfit (List (Key × Value))
  | [] => .ok []
  | v :: vs => do
    let p ← pair v
    let ps ← pairs vs
    return p :: ps

/-- The rules that a document writes, in any of the ways they can be written. -/
def rulesOf : Value → Except Misfit (List (Key × Value))
  | .table fields => .ok (fields.map fun (k, v) => (.name k, v))
  | v =>
    match parts? v with
    | some vs => pairs vs
    | none => .error .notPairs

/-- Set a rule: in its place if it is there, else at the end. -/
def put (rules : List (Key × Value)) (key : Key) (v : Value) : List (Key × Value) :=
  match rules with
  | [] => [(key, v)]
  | (k, old) :: rest => if k.same key then (k, v) :: rest else (k, old) :: put rest key v

/-- Rules laid over others. -/
def overlay (base added : List (Key × Value)) : List (Key × Value) :=
  added.foldl (fun rules r => put rules r.1 r.2) base

/-- The rules of the standard configuration. -/
def standardRules : List (Key × Value) :=
  Config.standard.written.map fun (id, v) => (.name id, v)

/-- The step of a path to a key that is no name.  A whole number is shown as a text if it does not
fit a machine word, and not at all if it is too long. -/
def Key.step? : Key → Option PathStep
  | .name _ => none
  | .whole n =>
    if -(Binary64.twoTo 63 : Int) ≤ n && n < Binary64.twoTo 63 then some (.index n)
    else if (Value.whole n).showable then some (.field (toString n))
    else some (.field "<unprintable int object>")
  | .real x => some (.field (x.render .message))
  | .moment m => some (.field m.shown)

/-- The complaints about keys that are no names. -/
def keyIssues (rules : List (Key × Value)) : List Issue :=
  (rules.filterMap fun r => r.1.step?).map fun step =>
    ⟨[.field "rules", step, .field "[key]"], .notText⟩

/-- The rules whose keys are names. -/
def named (rules : List (Key × Value)) : Table :=
  rules.filterMap fun r =>
    match r.1 with
    | .name s => some (s, r.2)
    | _ => none

/-- The configuration of a list of rules.  Keys are looked at before settings. -/
def ofRules (rules : List (Key × Value)) : Checked Config :=
  match keyIssues rules with
  | [] => Config.ofRules (named rules)
  | issues => .error issues

/-- The table under a key, which may be missing but may be nothing else. -/
def subtable (t : Table) (key : String) : Except Misfit Table :=
  match Table.get? t key with
  | none => .ok []
  | some (.table sub) => .ok sub
  | some _ => .error .notTable

/-- The rules that a document sets. -/
def settings (document : Table) : Except Misfit (List (Key × Value)) := do
  let tool ← subtable document "tool"
  let lint ← subtable tool "ggb-lint"
  match Table.get? lint "rules" with
  | none => return []
  | some v => rulesOf v

/-- The configuration of a document: its rules over the standard ones. -/
def ofDocument (document : Table) : Except Fault Config :=
  match settings document with
  | .error m => .error (.misfit m)
  | .ok rules =>
    match ofRules (overlay standardRules rules) with
    | .ok config => .ok config
    | .error issues => .error (.invalid issues)

/-- What there is at the path of a configuration file. -/
inductive Source where
  /-- Nothing, or no path was given. -/
  | missing
  /-- Something that cannot be read as a file. -/
  | unreadable
  /-- A file. -/
  | file (content : ByteArray)

/-- A configuration, and whether the file had to be passed over to get it. -/
structure Loaded where
  /-- The configuration. -/
  config : Config
  /-- The file could not be read as a document. -/
  ignored : Bool

/-- Load a configuration file. -/
def load : Source → Except Fault Loaded
  | .missing => .ok ⟨.standard, false⟩
  | .unreadable => .ok ⟨.standard, true⟩
  | .file content =>
    match String.fromUTF8? content with
    | none => .error (.misfit .notUnicode)
    | some text =>
      match Value.parseToml text with
      | .error .malformed => .ok ⟨.standard, true⟩
      | .error .tooManyDigits => .error (.misfit .numberTooLong)
      | .ok document => (ofDocument document).map fun config => ⟨config, false⟩

end ConfigFile

end GeoLint
