import GeoLint.Catalogue.Signature
import GeoLint.Validation
import GeoLint.Value.Json

/-!
# Command catalogues

A catalogue knows commands by name and keeps the overloads of each in the order in which they
were recorded.  It is built from records (`Catalogue.ofRecords`), which come from data of any
shape (`Record.ofValue`).
-/

namespace GeoLint

/-- A command with a word on what it shows. -/
structure Example where
  /-- What it shows. -/
  description : String
  /-- The command. -/
  command : String
deriving DecidableEq, Repr

/-- A recorded command: all its overloads in one signature. -/
structure Record where
  /-- The overloads in the notation of signatures. -/
  signature : String
  /-- The name of the command. -/
  command : String
  /-- What the command does. -/
  description : String
  /-- How it is used. -/
  examples : List Example
  /-- A remark. -/
  note : String
deriving DecidableEq, Repr

/-- One way to call a command. -/
structure Overload where
  /-- The name of the command. -/
  command : String
  /-- Its slots. -/
  parameters : List Parameter
  /-- What the command does. -/
  description : String
  /-- The overload as its signature writes it. -/
  signature : String
  /-- How the command is used. -/
  examples : List Example
  /-- A remark. -/
  note : String
deriving DecidableEq, Repr

namespace Overload

/-- The number of slots that have to be filled. -/
def required (o : Overload) : Nat :=
  o.parameters.countP fun p => !p.optional

/-- The number of slots. -/
def total (o : Overload) : Nat :=
  o.parameters.length

/-- The overload that one branch of a record's signature writes. -/
def ofBranch (r : Record) (branch : List Char) : Overload where
  command := r.command
  parameters := Signature.parameters branch
  description := r.description
  signature := String.ofList branch
  examples := r.examples
  note := r.note

/-- A slot in words. -/
def describeParameter (p : Parameter) : String :=
  let listed := match p.alternatives with
    | some (a :: as) => "(" ++ "|".intercalate (a :: as) ++ ")"
    | _ => ""
  p.type ++ listed ++ (if p.optional then " (optional)" else "")

/-- The slots in words, numbered from one. -/
def describe (o : Overload) : String :=
  ", ".intercalate (o.parameters.mapIdx fun i p => s!"{i + 1}. {describeParameter p}")

end Overload

namespace Record

/-- The overloads of a record. -/
def overloads (r : Record) : List Overload :=
  (Signature.branches r.signature.toList).map fun b => .ofBranch r (Text.trim b)

/-- The check of an example. -/
def exampleOfValue : Value → Checked Example
  | .table t =>
    (Checked.both (Table.optional t "description" "" Value.asText)
      (Table.required t "command" [] Value.asText)).map fun (d, c) => ⟨d, c⟩
  | _ => .fail (.notRecord "CommandExample")

/-- The check of a record.  The name of the command has two spellings, of which the first wins. -/
def ofValue : Value → Checked Record
  | .table t =>
    (Checked.both (Table.required t "signature" [] Value.asText)
      (Checked.both (Table.required t "commandBase" ["command_base"] Value.asFullText)
        (Checked.both (Table.optional t "description" "" Value.asText)
          (Checked.both (Table.optional t "examples" [] (Value.asList exampleOfValue))
            (Table.optional t "note" "" Value.asText))))).map
      fun (signature, command, description, examples, note) =>
        ⟨signature, command, description, examples, note⟩
  | _ => .fail (.notRecord "CommandSignature")

end Record

/-- The known commands. -/
structure Catalogue where
  /-- The overloads of each command, under its name. -/
  entries : List (String × List Overload)
deriving Repr

namespace Catalogue

/-- A catalogue without commands. -/
def empty : Catalogue := ⟨[]⟩

/-- Entries with one more overload: behind those of its command, or as a new entry. -/
def addTo (o : Overload) : List (String × List Overload) → List (String × List Overload)
  | [] => [(o.command, [o])]
  | (name, os) :: rest =>
    if name = o.command then (name, os ++ [o]) :: rest else (name, os) :: addTo o rest

/-- The catalogue with one more overload. -/
def add (c : Catalogue) (o : Overload) : Catalogue :=
  ⟨addTo o c.entries⟩

/-- The catalogue of a list of overloads. -/
def ofOverloads (os : List Overload) : Catalogue :=
  os.foldl add empty

/-- The catalogue of a list of records. -/
def ofRecords (records : List Record) : Catalogue :=
  ofOverloads (records.flatMap Record.overloads)

/-- The overloads of a command; none if it is not known. -/
def overloads? (c : Catalogue) (name : String) : Option (List Overload) :=
  c.entries.lookup name

/-- The command is known. -/
def knows (c : Catalogue) (name : String) : Bool :=
  (c.overloads? name).isSome

/-- The names of all commands, in the order in which they were first recorded. -/
def names (c : Catalogue) : List String :=
  c.entries.map Prod.fst

/-- The number of commands. -/
def size (c : Catalogue) : Nat :=
  c.entries.length

/-- The overload a call with `count` arguments is held against: the first with as many slots, or
else the first. -/
def bestMatch? (c : Catalogue) (name : String) (count : Nat) : Option Overload :=
  match c.overloads? name with
  | none => none
  | some os => (os.find? fun o => o.total = count).or os.head?

/-- What a command does. -/
def description? (c : Catalogue) (name : String) : Option String :=
  ((c.overloads? name).bind List.head?).map Overload.description

/-- The catalogue of data of any shape. -/
def ofValue (v : Value) : Checked Catalogue :=
  (v.asList Record.ofValue).map ofRecords

/-- Why a file is no catalogue. -/
inductive FileFault where
  /-- There is no such file. -/
  | missing
  /-- The bytes are no text. -/
  | notUnicode
  /-- The text is no data tree. -/
  | notData
  /-- A number of the text is too long to be converted. -/
  | numberTooLong
  /-- The data are no records. -/
  | invalid (issues : List Issue)
deriving DecidableEq, Repr

/-- The catalogue in a file; `none` stands for a file that is not there. -/
def ofFile (content : Option ByteArray) : Except FileFault Catalogue :=
  match content with
  | none => .error .missing
  | some bytes =>
    match String.fromUTF8? bytes with
    | none => .error .notUnicode
    | some s =>
      match Value.parseJson s with
      | .error .malformed => .error .notData
      | .error .tooManyDigits => .error .numberTooLong
      | .ok v =>
        match ofValue v with
        | .ok c => .ok c
        | .error issues => .error (.invalid issues)

end Catalogue

end GeoLint
