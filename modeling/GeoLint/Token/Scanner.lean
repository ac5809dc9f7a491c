import GeoLint.Decimal.Basic
import GeoLint.Token.Basic

/-!
# Scanning a script

The scanner reads one token at a time from a `Cursor`, the text that is left and its position.
Before each token it skips *layout*: spaces, tabs, carriage returns, and a comment up to the end
of its line.  Names, numbers and layout are given by functions to the prefix of the text they
take, each as long as it can be; only string literals look at what the characters mean.

Every character belongs to some token, so scanning cannot fail.  Characters that start no token
are tokens of the kind `unknown`, which `Token.scan` leaves out.
-/

namespace GeoLint

open Decimal (isDigit)

/-- What is left of a script. -/
structure Cursor where
  /-- The text from here on. -/
  rest : List Char
  /-- Where that text starts. -/
  position : Position
deriving DecidableEq, Repr

namespace Cursor

/-- The start of a script. -/
def ofSource (source : String) : Cursor := ⟨source.toList, .origin⟩

/-- The cursor `n` characters on, none of which ends a line. -/
def forward (c : Cursor) (n : Nat) : Cursor := ⟨c.rest.drop n, c.position.right n⟩

end Cursor

namespace Token

/-! ### Prefixes -/

/-- The letters of a name. -/
def isLetter (c : Char) : Bool :=
  ('a' ≤ c && c ≤ 'z') || ('A' ≤ c && c ≤ 'Z') || c = '_'

/-- The characters of a name after its first. -/
def isNameChar (c : Char) : Bool :=
  isLetter c || isDigit c

/-- A character that never counts, in front of a token. -/
def isSpace (c : Char) : Bool :=
  c = ' ' || c = '\t' || c = '\r'

/-- The comment at the start of the text. -/
def comment (cs : List Char) : List Char :=
  match cs with
  | '/' :: '/' :: _ => cs.takeWhile (· ≠ '\n')
  | _ => []

/-- The layout at the start of the text.  After a comment stands the end of its line, which is a
token, so there is at most one comment. -/
def layout (cs : List Char) : List Char :=
  cs.takeWhile isSpace ++ comment (cs.dropWhile isSpace)

/-- The digits at the start of the text. -/
def digits (cs : List Char) : List Char :=
  cs.takeWhile isDigit

/-- A point with digits after it. -/
def fraction : List Char → List Char
  | '.' :: cs => if (digits cs).isEmpty then [] else '.' :: digits cs
  | _ => []

/-- A plus or a minus. -/
def sign : List Char → List Char
  | '+' :: _ => ['+']
  | '-' :: _ => ['-']
  | _ => []

/-- The mark of an exponent, with a sign and digits as far as they are there. -/
def exponent : List Char → List Char
  | [] => []
  | mark :: cs =>
    if mark = 'e' || mark = 'E' then mark :: (sign cs ++ digits (cs.drop (sign cs).length)) else []

/-- The minus in front of a number. -/
def minus : List Char → List Char
  | '-' :: _ => ['-']
  | _ => []

/-- The number at the start of the text. -/
def numeral (cs : List Char) : List Char :=
  let m := minus cs
  let cs := cs.drop m.length
  let w := digits cs
  let cs := cs.drop w.length
  let f := fraction cs
  let cs := cs.drop f.length
  m ++ w ++ f ++ exponent cs

/-- A number starts here. -/
def startsNumeral : List Char → Bool
  | '-' :: c :: _ => isDigit c
  | c :: _ => isDigit c
  | [] => false

/-- The name at the start of the text. -/
def name (cs : List Char) : List Char :=
  cs.takeWhile isNameChar

/-- The kind of a name: two of them are truth values. -/
def nameKind (lexeme : List Char) : Kind :=
  if lexeme = "true".toList || lexeme = "false".toList then .truth else .identifier

/-! ### String literals -/

/-- What a character after a backslash stands for. -/
def unescape (c : Char) : Char :=
  if c = 'n' then '\n' else if c = 't' then '\t' else c

/-- The rest of a string literal after its opening quote: the text it stands for, and the cursor
behind its closing quote or at the end of the script.  A line end in the literal starts a new
line, except right after a backslash, where it is a character like any other. -/
def literal (quote : Char) : List Char → Position → List Char × Cursor
  | [], p => ([], ⟨[], p⟩)
  | c :: cs, p =>
    if c = quote then ([], ⟨cs, p.right 1⟩)
    else if c = '\\' then
      match cs with
      | [] => ([], ⟨[], p.right 1⟩)
      | e :: cs =>
        let (v, after) := literal quote cs (p.right 2)
        (unescape e :: v, after)
    else
      let (v, after) := literal quote cs (if c = '\n' then p.nextLine else p.right 1)
      (c :: v, after)

/-! ### One token, all tokens -/

/-- A token whose text is `lexeme`, and the cursor behind it. -/
def taken (c : Cursor) (kind : Kind) (lexeme : List Char) : Token × Cursor :=
  (⟨kind, String.ofList lexeme, c.position⟩, c.forward lexeme.length)

/-- The token at a cursor that stands at no layout. -/
def lexeme (c : Cursor) : Token × Cursor :=
  match c.rest with
  | [] => (.final c.position, c)
  | ch :: cs =>
    if ch = '\x22' || ch = '\x27' then
      let (v, after) := literal ch cs (c.position.right 1)
      (⟨.text, String.ofList v, c.position⟩, after)
    else if startsNumeral c.rest then taken c .number (numeral c.rest)
    else if isLetter ch then taken c (nameKind (name c.rest)) (name c.rest)
    else if ch = '\n' then (⟨.newline, "\n", c.position⟩, ⟨cs, c.position.nextLine⟩)
    else taken c (.ofChar ch) [ch]

/-- The next token, and the cursor behind it.  At the end of the script this is the final token,
and the cursor stays. -/
def next (c : Cursor) : Token × Cursor :=
  lexeme (c.forward (layout c.rest).length)

/-- The tokens from the cursor on, at most `fuel` of them, and where the final token stands. -/
def run : Nat → Cursor → List Token × Position
  | 0, c => ([], (next c).1.position)
  | fuel + 1, c =>
    let (t, c) := next c
    if t.kind = .ending then ([], t.position)
    else
      let (ts, stop) := run fuel c
      (if t.kind = .unknown then ts else t :: ts, stop)

/-- The tokens of a script without the unknown ones, and where the script ends.  Every token takes
a character, so there are no more tokens than characters. -/
def scan (source : String) : List Token × Position :=
  run source.length (.ofSource source)

/-- The tokens of a script, with the final one at the end. -/
def tokenize (source : String) : List Token :=
  let (ts, stop) := scan source
  ts ++ [.final stop]

end Token

end GeoLint
