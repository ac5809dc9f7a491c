import GeoLint.Text.Blank
import GeoLint.Value.Basic

/-!
# Reading configuration documents

`Value.parseToml` reads a document of tables: lines `key = value` under headers `[table]` and
`[[list of tables]]`, with dotted and quoted keys, the four kinds of strings, numbers, truth
values, dates and times, lists and inline tables.

A table may be written only once.  A `Document` therefore remembers, beside its content, which
tables have been opened by a header or by the dots of a key and may not be opened again
(`opened`), and below which keys nothing may be added because the value was written out in full
(`frozen`).
-/

namespace GeoLint

namespace Value

namespace Toml

/-- The keys on the way to a value. -/
abbrev Path := List String

/-! ### Characters -/

/-- Space between the parts of a line. -/
def isSpace (c : Char) : Bool :=
  c = ' ' || c = '\t'

/-- The text after any spaces and tabs. -/
def skipSpace (cs : List Char) : List Char :=
  cs.dropWhile isSpace

/-- Characters of a key without quotes. -/
def isBareChar (c : Char) : Bool :=
  ('a' ≤ c && c ≤ 'z') || ('A' ≤ c && c ≤ 'Z') || Decimal.isDigit c || c = '-' || c = '_'

/-- Controls that may stand nowhere in a line; the tab may. -/
def isIllegal (c : Char) : Bool :=
  (c.toNat < 0x20 && c ≠ '\t') || c.toNat = 0x7F

/-- Controls that may not stand in a string of several lines. -/
def isIllegalInLines (c : Char) : Bool :=
  isIllegal c && c ≠ '\n'

/-- The text behind a comment, if one starts here. -/
def skipComment (cs : List Char) : Except Fault (List Char) :=
  match cs with
  | '#' :: rest =>
    if (rest.takeWhile (· ≠ '\n')).any isIllegal then .error .malformed
    else .ok (rest.dropWhile (· ≠ '\n'))
  | _ => .ok cs

/-- The text behind spaces, line ends and comments, as they may stand between the items of a
list. -/
def skipLines : Nat → List Char → Except Fault (List Char)
  | 0, cs => .ok cs
  | fuel + 1, cs => do
    let cs := cs.dropWhile fun c => isSpace c || c = '\n'
    match cs with
    | '#' :: _ => skipLines fuel (← skipComment cs)
    | _ => return cs

/-! ### Strings -/

/-- The character that hexadecimal digits stand for, and the text behind them. -/
def hexEscape (width : Nat) (cs : List Char) : Except Fault (List Char × List Char) :=
  match hexNumber? (cs.take width) with
  | some n =>
    if (cs.take width).length = width && n.isValidChar then .ok ([Char.ofNat n], cs.drop width)
    else .error .malformed
  | none => .error .malformed

/-- What stands behind a backslash: the characters it makes, and the text behind it.  In a string
of several lines a backslash at the end of a line takes away all space up to the next text. -/
def escape (multiline : Bool) : List Char → Except Fault (List Char × List Char)
  | [] => .error .malformed
  | c :: rest =>
    if multiline && c = '\n' then .ok ([], rest.dropWhile fun c => isSpace c || c = '\n')
    else if multiline && isSpace c then
      match skipSpace rest with
      | '\n' :: rest => .ok ([], rest.dropWhile fun c => isSpace c || c = '\n')
      | _ => .error .malformed
    else if c = 'u' then hexEscape 4 rest
    else if c = 'U' then hexEscape 8 rest
    else if c = 'b' then .ok (['\x08'], rest)
    else if c = 't' then .ok (['\t'], rest)
    else if c = 'n' then .ok (['\n'], rest)
    else if c = 'f' then .ok (['\x0c'], rest)
    else if c = 'r' then .ok (['\r'], rest)
    else if c = '\x22' || c = '\\' then .ok ([c], rest)
    else .error .malformed

/-- The rest of a string with escapes, and the text behind its closing quotes. -/
def basicString (multiline : Bool) : Nat → List Char → Except Fault (List Char × List Char)
  | 0, _ => .error .malformed
  | fuel + 1, cs =>
    match cs with
    | [] => .error .malformed
    | '\\' :: rest => do
      let (made, rest) ← escape multiline rest
      let (more, rest) ← basicString multiline fuel rest
      return (made ++ more, rest)
    | c :: rest =>
      if c = '\x22' && !multiline then .ok ([], rest)
      else if c = '\x22' && rest.take 2 = ['\x22', '\x22'] then .ok ([], rest.drop 2)
      else if c ≠ '\x22' && (if multiline then isIllegalInLines c else isIllegal c) then
        .error .malformed
      else do
        let (more, rest) ← basicString multiline fuel rest
        return (c :: more, rest)

/-- The rest of a string without escapes on one line. -/
def literalString (cs : List Char) : Except Fault (List Char × List Char) :=
  let body := cs.takeWhile (· ≠ '\x27')
  match cs.drop body.length with
  | [] => .error .malformed
  | _ :: rest => if body.any isIllegal then .error .malformed else .ok (body, rest)

/-- The rest of a string without escapes on several lines. -/
def literalLines : List Char → Except Fault (List Char × List Char)
  | '\x27' :: '\x27' :: '\x27' :: rest => .ok ([], rest)
  | [] => .error .malformed
  | c :: rest =>
    if isIllegalInLines c then .error .malformed
    else do
      let (more, rest) ← literalLines rest
      return (c :: more, rest)

/-- One or two further quotes at the end of a string of several lines belong to it. -/
def closingQuotes (quote : Char) (body rest : List Char) : List Char × List Char :=
  match rest with
  | a :: b :: rest' =>
    if a = quote && b = quote then (body ++ [a, b], rest')
    else if a = quote then (body ++ [a], b :: rest')
    else (body, rest)
  | [a] => if a = quote then (body ++ [a], []) else (body, rest)
  | [] => (body, rest)

/-- The text behind a line end, if one starts here. -/
def skipNewline : List Char → List Char
  | '\n' :: rest => rest
  | cs => cs

/-- The string at the start of the text; none starts here if the result is none. -/
def string? (cs : List Char) : Option (Except Fault (List Char × List Char)) :=
  match cs with
  | '\x22' :: '\x22' :: '\x22' :: rest => some do
    let (body, rest) ← basicString true (rest.length + 1) (skipNewline rest)
    return closingQuotes '\x22' body rest
  | '\x22' :: rest => some (basicString false (rest.length + 1) rest)
  | '\x27' :: '\x27' :: '\x27' :: rest => some do
    let (body, rest) ← literalLines (skipNewline rest)
    return closingQuotes '\x27' body rest
  | '\x27' :: rest => some (literalString rest)
  | _ => none

/-! ### Keys -/

/-- One part of a key. -/
def keyPart (cs : List Char) : Except Fault (String × List Char) :=
  match cs with
  | '\x22' :: rest => do
    let (body, rest) ← basicString false (rest.length + 1) rest
    return (String.ofList body, rest)
  | '\x27' :: rest => do
    let (body, rest) ← literalString rest
    return (String.ofList body, rest)
  | _ =>
    let body := cs.takeWhile isBareChar
    if body.isEmpty then .error .malformed
    else .ok (String.ofList body, cs.drop body.length)

/-- The parts of a key, with dots between them, and the text behind the key and its space. -/
def key : Nat → List Char → Except Fault (Path × List Char)
  | 0, _ => .error .malformed
  | fuel + 1, cs => do
    let (part, rest) ← keyPart cs
    match skipSpace rest with
    | '.' :: rest =>
      let (parts, rest) ← key fuel (skipSpace rest)
      return (part :: parts, rest)
    | rest => return ([part], rest)

/-! ### Numbers -/

/-- Digits with single underscores between them, without the underscores, and the text behind
them. -/
def digits (p : Char → Bool) : List Char → List Char × List Char
  | [] => ([], [])
  | [c] => if p c then ([c], []) else ([], [c])
  | c :: d :: rest =>
    if p c then
      let (ds, rest) := digits p (d :: rest)
      (c :: ds, rest)
    else if c = '_' && p d then
      let (ds, rest) := digits p rest
      (d :: ds, rest)
    else ([], c :: d :: rest)

/-- Digits as in `digits`, but at least one, which comes first. -/
def someDigits (p : Char → Bool) (cs : List Char) : Option (List Char × List Char) :=
  match cs with
  | c :: _ => if p c then some (digits p cs) else none
  | [] => none

/-- The number that digits of a base spell. -/
def inBase (base : Nat) (ds : List Char) : Nat :=
  ds.foldl (fun n d => base * n + (hexValue? d).getD 0) 0

/-- A whole number in base sixteen, eight or two. -/
def baseNumber? : List Char → Option (Value × List Char)
  | '0' :: mark :: cs =>
    let base := if mark = 'x' then 16 else if mark = 'o' then 8 else if mark = 'b' then 2 else 0
    let isDigit := fun c => (hexValue? c).any (· < base)
    (someDigits isDigit cs).map fun (ds, rest) => (.whole (inBase base ds), rest)
  | _ => none

/-- A decimal number.  With a point or an exponent it has double precision, else it is whole. -/
def decimalNumber (cs : List Char) : Except Fault (Value × List Char) := do
  let (sign, body) := match cs with
    | '+' :: body => (['+'], body)
    | '-' :: body => (['-'], body)
    | body => ([], body)
  let (ds, rest) ← match body with
    | '0' :: rest => pure (['0'], rest)
    | body => match someDigits Decimal.isDigit body with
      | some r => pure r
      | none => .error .malformed
  let (fraction, rest) := match rest with
    | '.' :: tail => match someDigits Decimal.isDigit tail with
      | some (fs, tail) => ('.' :: fs, tail)
      | none => ([], rest)
    | _ => ([], rest)
  let (exponent, rest) := match rest with
    | mark :: tail =>
      if mark = 'e' || mark = 'E' then
        let (s, tail) := match tail with
          | '+' :: tail => (['+'], tail)
          | '-' :: tail => (['-'], tail)
          | tail => ([], tail)
        match someDigits Decimal.isDigit tail with
        | some (es, tail) => (mark :: (s ++ es), tail)
        | none => ([], rest)
      else ([], rest)
    | [] => ([], rest)
  if fraction.isEmpty && exponent.isEmpty then
    if maxDigits < ds.length then .error .tooManyDigits
    else
      let n : Int := Decimal.ofDigits ds
      return (.whole (if sign = ['-'] then -n else n), rest)
  else
    match Binary64.parse? (sign ++ ds ++ fraction ++ exponent) with
    | some x => return (.real x, rest)
    | none => .error .malformed

/-- A word that stands for a value, a date or time, or a number. -/
def wordOrNumber (cs : List Char) : Except Fault (Value × List Char) :=
  let words : List (String × Value) :=
    [("true", .truth true), ("false", .truth false), ("inf", .real (.infinite false)),
     ("+inf", .real (.infinite false)), ("-inf", .real (.infinite true)), ("nan", .real .nan),
     ("+nan", .real .nan), ("-nan", .real .nan)]
  match words.find? fun w => w.1.toList.isPrefixOf cs with
  | some (word, v) => .ok (v, cs.drop word.length)
  | none =>
    match Moment.read? cs with
    | some (m, rest) => if m.exists? then .ok (.moment m, rest) else .error .malformed
    | none =>
      match baseNumber? cs with
      | some r => .ok r
      | none => decimalNumber cs

/-! ### Tables -/

/-- Change the table at the end of a path, which is made if it is not there.  With `lists`, a
list of tables on the path stands for its last table. -/
def modifyAt (lists : Bool) (f : Table → Option Table) : Path → Table → Option Table
  | [], t => f t
  | k :: ks, t =>
    match Table.get? t k with
    | none => (modifyAt lists f ks []).map fun sub => Table.set t k (.table sub)
    | some (.table sub) => (modifyAt lists f ks sub).map fun sub => Table.set t k (.table sub)
    | some (.list items) =>
      match lists, items.getLast? with
      | true, some (.table sub) =>
        (modifyAt lists f ks sub).map fun sub =>
          Table.set t k (.list (items.dropLast ++ [.table sub]))
      | _, _ => none
    | some _ => none

/-- Add a key that is not there yet. -/
def addNew (k : String) (v : Value) (t : Table) : Option Table :=
  if (Table.get? t k).isSome then none else some (Table.set t k v)

/-- Add an empty table to the list under a key, which is made if it is not there. -/
def addTable (k : String) (t : Table) : Option Table :=
  match Table.get? t k with
  | none => some (Table.set t k (.list [.table []]))
  | some (.list items) => some (Table.set t k (.list (items ++ [.table []])))
  | some _ => none

/-- The value was written out in full. -/
def isWrittenOut : Value → Bool
  | .table _ | .list _ => true
  | _ => false

/-- The path leads to one of the marked places, or below one. -/
def below (marked : List Path) (path : Path) : Bool :=
  marked.any fun m => m.isPrefixOf path

/-- What an inline table holds so far, and which of its keys are written out. -/
structure Inline where
  /-- The content. -/
  content : Table
  /-- Nothing may be added below these. -/
  frozen : List Path

/-- The inline table with one more entry. -/
def Inline.add (t : Inline) (path : Path) (v : Value) : Except Fault Inline :=
  if below t.frozen path then .error .malformed
  else
    match modifyAt false (addNew (path.getLastD "") v) path.dropLast t.content with
    | some content =>
      .ok ⟨content, if isWrittenOut v then path :: t.frozen else t.frozen⟩
    | none => .error .malformed

mutual
/-- A value at the start of the text. -/
def value : Nat → List Char → Except Fault (Value × List Char)
  | 0, _ => .error .malformed
  | fuel + 1, cs =>
    match string? cs with
    | some result => result.map fun (body, rest) => (.text (String.ofList body), rest)
    | none =>
      match cs with
      | '[' :: rest => do
        let (vs, rest) ← items fuel (← skipLines rest.length rest)
        return (.list vs, rest)
      | '\x7b' :: rest =>
        match skipSpace rest with
        | '\x7d' :: rest => .ok (.table [], rest)
        | rest => do
          let (t, rest) ← entries fuel ⟨[], []⟩ rest
          return (.table t, rest)
      | cs => wordOrNumber cs

/-- The items of a list up to its closing bracket.  A comma may follow the last one. -/
def items : Nat → List Char → Except Fault (List Value × List Char)
  | 0, _ => .error .malformed
  | fuel + 1, cs =>
    match cs with
    | ']' :: rest => .ok ([], rest)
    | cs => do
      let (v, rest) ← value fuel cs
      match ← skipLines rest.length rest with
      | ']' :: rest => return ([v], rest)
      | ',' :: rest =>
        let (vs, rest) ← items fuel (← skipLines rest.length rest)
        return (v :: vs, rest)
      | _ => .error .malformed

/-- The entries of an inline table up to its closing brace. -/
def entries : Nat → Inline → List Char → Except Fault (Table × List Char)
  | 0, _, _ => .error .malformed
  | fuel + 1, t, cs => do
    let (path, rest) ← key (cs.length + 1) cs
    match rest with
    | '=' :: rest =>
      let (v, rest) ← value fuel (skipSpace rest)
      let t ← t.add path v
      match skipSpace rest with
      | '\x7d' :: rest => return (t.content, rest)
      | ',' :: rest => entries fuel t (skipSpace rest)
      | _ => .error .malformed
    | _ => .error .malformed
end

/-! ### Documents -/

/-- A document as far as it has been read. -/
structure Document where
  /-- The content. -/
  content : Table
  /-- The table that the lines being read belong to. -/
  header : Path
  /-- Tables that may not be opened again. -/
  opened : List Path
  /-- Tables that the dots of keys opened under the present header. -/
  dotted : List Path
  /-- Nothing may be added below these. -/
  frozen : List Path

namespace Document

/-- Nothing has been read. -/
def empty : Document := ⟨[], [], [], [], []⟩

/-- A new header begins: what dots opened under the last one counts from now on. -/
def settle (d : Document) : Document :=
  { d with opened := d.dotted ++ d.opened, dotted := [] }

/-- Open a table by its header. -/
def openTable (d : Document) (path : Path) : Except Fault Document :=
  if d.opened.contains path || below d.frozen path then .error .malformed
  else
    match modifyAt true some path d.content with
    | some content =>
      .ok { d with content := content, header := path, opened := path :: d.opened }
    | none => .error .malformed

/-- Open a new table at the end of a list of tables.  Tables below the one before it may be opened
again. -/
def openItem (d : Document) (path : Path) : Except Fault Document :=
  if below d.frozen path then .error .malformed
  else
    match modifyAt true (addTable (path.getLastD "")) path.dropLast d.content with
    | some content =>
      .ok
        { d with
          content := content
          header := path
          opened := path :: d.opened.filter fun p => !path.isPrefixOf p
          frozen := d.frozen.filter fun p => !path.isPrefixOf p }
    | none => .error .malformed

/-- Set a key under the present header. -/
def put (d : Document) (path : Path) (v : Value) : Except Fault Document :=
  let nests := (List.range (path.length - 1)).map fun i => d.header ++ path.take (i + 1)
  let parent := d.header ++ path.dropLast
  if nests.any d.opened.contains || below d.frozen parent then .error .malformed
  else
    match modifyAt true (addNew (path.getLastD "") v) parent d.content with
    | some content =>
      .ok
        { d with
          content := content
          dotted := nests ++ d.dotted
          frozen := if isWrittenOut v then (d.header ++ path) :: d.frozen else d.frozen }
    | none => .error .malformed

/-- What a header or a line says, and the text behind it. -/
def statement (d : Document) (cs : List Char) : Except Fault (Document × List Char) :=
  match cs with
  | '[' :: '[' :: rest => do
    let (path, rest) ← key (rest.length + 1) (skipSpace rest)
    let d ← d.settle.openItem path
    match rest with
    | ']' :: ']' :: rest => return (d, rest)
    | _ => .error .malformed
  | '[' :: rest => do
    let (path, rest) ← key (rest.length + 1) (skipSpace rest)
    let d ← d.settle.openTable path
    match rest with
    | ']' :: rest => return (d, rest)
    | _ => .error .malformed
  | '#' :: _ => .ok (d, cs)
  | _ => do
    let (path, rest) ← key (cs.length + 1) cs
    match rest with
    | '=' :: rest =>
      let (v, rest) ← value (2 * rest.length + 2) (skipSpace rest)
      return (← d.put path v, rest)
    | _ => .error .malformed

/-- Read the lines that are left. -/
def lines : Nat → Document → List Char → Except Fault Document
  | 0, d, _ => .ok d
  | fuel + 1, d, cs =>
    match skipSpace cs with
    | [] => .ok d
    | '\n' :: rest => lines fuel d rest
    | cs => do
      let (d, rest) ← d.statement cs
      match ← skipComment (skipSpace rest) with
      | [] => return d
      | '\n' :: rest => lines fuel d rest
      | _ => .error .malformed

end Document

end Toml

/-- The content of a document. -/
def parseToml (s : String) : Except Fault Table := do
  let cs := Text.dropReturns s.toList
  let d ← Toml.Document.empty.lines (cs.length + 1) cs
  return d.content

end Value

end GeoLint
