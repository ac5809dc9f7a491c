import GeoLint.Decimal.Shortest
import GeoLint.Text.Quoted
import GeoLint.Value.Moment

/-!
# Data trees

`Value` is what a data file or a message between programs holds: texts, numbers, truth values,
dates, lists and tables.  A table keeps its entries in the order in which their keys first came; a key
set a second time keeps its place and takes the new value (`Table.set`).  Whether two trees are equal
can be decided (`Value.same_iff`).
-/

namespace GeoLint

/-- A data tree. -/
inductive Value where
  /-- No value. -/
  | null
  /-- A truth value. -/
  | truth (b : Bool)
  /-- A whole number. -/
  | whole (n : Int)
  /-- A number of double precision. -/
  | real (x : Binary64)
  /-- A text. -/
  | text (s : String)
  /-- A date or a time. -/
  | moment (m : Moment)
  /-- A list. -/
  | list (items : List Value)
  /-- A table, in the order of its keys. -/
  | table (fields : List (String × Value))
deriving Repr

/-- The entries of a table. -/
abbrev Table := List (String × Value)

namespace Table

/-- The value under a key. -/
def get? (t : Table) (key : String) : Option Value :=
  List.lookup key t

/-- Set a key: in its place if the table has it, else at the end. -/
def set : Table → String → Value → Table
  | [], key, v => [(key, v)]
  | (k, old) :: rest, key, v => if k = key then (k, v) :: rest else (k, old) :: set rest key v

/-- The table of a list of entries, each set in turn. -/
def ofEntries (entries : List (String × Value)) : Table :=
  entries.foldl (fun t e => set t e.1 e.2) []

/-- The keys, in order. -/
def keys (t : Table) : List String :=
  t.map Prod.fst

theorem get?_set_self (t : Table) (key : String) (v : Value) :
    (set t key v).get? key = some v := by
  induction t with
  | nil => simp [set, get?]
  | cons e rest ih =>
    obtain ⟨k, old⟩ := e
    by_cases h : k = key
    · subst h; simp [set, get?]
    · have h' : (key == k) = false := by simpa using Ne.symm h
      simpa [set, h, get?, List.lookup_cons, h'] using ih

theorem get?_set_of_ne (t : Table) {key other : String} (v : Value) (h : other ≠ key) :
    (set t key v).get? other = t.get? other := by
  induction t with
  | nil =>
    have h' : (other == key) = false := by simpa using h
    simp [set, get?, List.lookup_cons, h']
  | cons e rest ih =>
    obtain ⟨k, old⟩ := e
    by_cases hk : k = key
    · subst hk
      have h' : (other == k) = false := by simpa using h
      simp [set, get?, List.lookup_cons, h']
    · simp only [get?] at ih
      simp [set, hk, get?, List.lookup_cons, ih]

theorem keys_set (t : Table) (key : String) (v : Value) :
    (set t key v).keys = if key ∈ t.keys then t.keys else t.keys ++ [key] := by
  induction t with
  | nil => simp [set, keys]
  | cons e rest ih =>
    obtain ⟨k, old⟩ := e
    by_cases hk : k = key
    · subst hk; simp [set, keys]
    · simp only [keys] at ih
      simp only [set, hk, if_false, keys, List.map_cons, ih, List.mem_cons, Ne.symm hk, false_or]
      split <;> simp_all

end Table

namespace Value

/-- Whole numbers of more digits than this are not converted, neither from nor to a text. -/
def maxDigits : Nat := 4300

/-! ### Equality -/

mutual
/-- The values are equal. -/
def same : Value → Value → Bool
  | .null, .null => true
  | .truth a, .truth b => a = b
  | .whole m, .whole n => m = n
  | .real x, .real y => x = y
  | .text s, .text t => s = t
  | .moment a, .moment b => a = b
  | .list vs, .list ws => sameItems vs ws
  | .table t, .table u => sameFields t u
  | _, _ => false

/-- The items of two lists are equal. -/
def sameItems : List Value → List Value → Bool
  | [], [] => true
  | v :: vs, w :: ws => v.same w && sameItems vs ws
  | _, _ => false

/-- The entries of two tables are equal, and in the same order. -/
def sameFields : List (String × Value) → List (String × Value) → Bool
  | [], [] => true
  | (k, v) :: t, (l, w) :: u => k = l && v.same w && sameFields t u
  | _, _ => false
end

mutual
theorem same_iff : (v w : Value) → (v.same w = true ↔ v = w)
  | .null, w | .truth _, w | .whole _, w | .real _, w | .text _, w | .moment _, w => by
    cases w <;> simp [same]
  | .list vs, w => by cases w <;> simp [same, sameItems_iff vs]
  | .table t, w => by cases w <;> simp [same, sameFields_iff t]

theorem sameItems_iff : (vs ws : List Value) → (sameItems vs ws = true ↔ vs = ws)
  | [], ws => by cases ws <;> simp [sameItems]
  | v :: vs, ws => by cases ws <;> simp [sameItems, same_iff v, sameItems_iff vs]

theorem sameFields_iff : (t u : List (String × Value)) → (sameFields t u = true ↔ t = u)
  | [], u => by cases u <;> simp [sameFields]
  | (k, v) :: t, u => by
    cases u with
    | nil => simp [sameFields]
    | cons e u => simp [sameFields, same_iff v, sameFields_iff t, Prod.ext_iff]
end

instance : DecidableEq Value := fun v w => decidable_of_iff _ (same_iff v w)

/-! ### A value in a message -/

mutual
/-- The value as a message shows it, with texts in quotes. -/
def shown : Value → String
  | .null => "None"
  | .truth b => if b then "True" else "False"
  | .whole n => toString n
  | .real x => x.render .message
  | .text s => Text.quoted s
  | .moment m => m.shown
  | .list items => "[" ++ ", ".intercalate (shownItems items) ++ "]"
  | .table fields => "\x7b" ++ ", ".intercalate (shownFields fields) ++ "\x7d"

/-- The values of a list, each as a message shows it. -/
def shownItems : List Value → List String
  | [] => []
  | v :: vs => v.shown :: shownItems vs

/-- The entries of a table, each as a message shows it. -/
def shownFields : List (String × Value) → List String
  | [] => []
  | (k, v) :: rest => (Text.quoted k ++ ": " ++ v.shown) :: shownFields rest
end

mutual
/-- All whole numbers in the value are short enough to be shown. -/
def showable : Value → Bool
  | .whole n => n.natAbs < Decimal.tenTo maxDigits
  | .list items => showableItems items
  | .table fields => showableFields fields
  | _ => true

/-- All values of a list can be shown. -/
def showableItems : List Value → Bool
  | [] => true
  | v :: vs => v.showable && showableItems vs

/-- All entries of a table can be shown. -/
def showableFields : List (String × Value) → Bool
  | [] => true
  | (_, v) :: rest => v.showable && showableFields rest
end

/-! ### Written trees -/

/-- A character of a written text. -/
def writtenChar (c : Char) : List Char :=
  if c = '\x22' then ['\\', '\x22']
  else if c = '\\' then ['\\', '\\']
  else if c = '\n' then ['\\', 'n']
  else if c = '\r' then ['\\', 'r']
  else if c = '\t' then ['\\', 't']
  else if c = '\x08' then ['\\', 'b']
  else if c = '\x0c' then ['\\', 'f']
  else if c.toNat < 0x20 then '\\' :: 'u' :: Text.hex 4 c.toNat
  else [c]

/-- A text in double quotes, with controls escaped and all else as it is. -/
def writtenText (s : String) : String :=
  String.ofList ('\x22' :: (s.toList.flatMap writtenChar ++ ['\x22']))

/-- The text of a value that holds no other. -/
def writeLeaf : Value → String
  | .null => "null"
  | .truth b => if b then "true" else "false"
  | .whole n => toString n
  | .real x => x.render .tree
  | .text s => writtenText s
  | .moment m => writtenText m.shown
  | .list _ => "[]"
  | .table _ => "\x7b\x7d"

mutual
/-- The tree on one line, without spaces. -/
def compact : Value → String
  | .list items => "[" ++ ",".intercalate (compactItems items) ++ "]"
  | .table fields => "\x7b" ++ ",".intercalate (compactFields fields) ++ "\x7d"
  | v => v.writeLeaf

/-- The items of a list, each on one line. -/
def compactItems : List Value → List String
  | [] => []
  | v :: vs => v.compact :: compactItems vs

/-- The entries of a table, each on one line. -/
def compactFields : List (String × Value) → List String
  | [] => []
  | (k, v) :: rest => (writtenText k ++ ":" ++ v.compact) :: compactFields rest
end

/-- Lines between brackets, two columns deeper than the brackets themselves. -/
def bracketed (opening closing : String) (depth : Nat) : List String → String
  | [] => opening ++ closing
  | items =>
    let margin := fun d => "\n" ++ String.ofList (List.replicate (2 * d) ' ')
    opening ++ margin (depth + 1) ++ ("," ++ margin (depth + 1)).intercalate items ++
      margin depth ++ closing

mutual
/-- The tree with one entry a line, as part of a tree that is `depth` levels deep already. -/
def indentedAt (depth : Nat) : Value → String
  | .list items => bracketed "[" "]" depth (indentedItems (depth + 1) items)
  | .table fields => bracketed "\x7b" "\x7d" depth (indentedFields (depth + 1) fields)
  | v => v.writeLeaf

/-- The items of a list, each with one entry a line. -/
def indentedItems (depth : Nat) : List Value → List String
  | [] => []
  | v :: vs => v.indentedAt depth :: indentedItems depth vs

/-- The entries of a table, each with one entry a line. -/
def indentedFields (depth : Nat) : List (String × Value) → List String
  | [] => []
  | (k, v) :: rest => (writtenText k ++ ": " ++ v.indentedAt depth) :: indentedFields depth rest
end

/-- The tree with one entry a line, two columns deeper at each level. -/
def indented (v : Value) : String :=
  v.indentedAt 0

/-! ### Reading -/

/-- Why a text is no tree. -/
inductive Fault where
  /-- The text breaks the notation. -/
  | malformed
  /-- A whole number has more digits than are converted. -/
  | tooManyDigits
deriving DecidableEq, Repr

/-- The value of a hexadecimal digit. -/
def hexValue? (c : Char) : Option Nat :=
  if '0' ≤ c && c ≤ '9' then some (c.toNat - '0'.toNat)
  else if 'a' ≤ c && c ≤ 'f' then some (c.toNat - 'a'.toNat + 10)
  else if 'A' ≤ c && c ≤ 'F' then some (c.toNat - 'A'.toNat + 10)
  else none

/-- The number that hexadecimal digits spell. -/
def hexNumber? (cs : List Char) : Option Nat :=
  cs.foldl (fun n c => do return 16 * (← n) + (← hexValue? c)) (some 0)

end Value

end GeoLint
