import GeoLint.Proofs.Syntax.Exchange

/-!
# The parser as a machine

The functions of `Parsing` pass on the tokens that are left.  Here is the same parser as a machine
that keeps all tokens and the index of the next one: it reads the token at the index, the token in
front of it, moves the index forward, and puts it back after a look ahead.

The machine is careful.  Every read and every move of the index is checked, every loop has a bound,
and the top-level loop has to move on.  What should never happen is a `Fault`, which nothing
catches.

The machine does what `Script.parse` does, whatever it was used for before, and so there are no
faults: that is proved in `GeoLint.Proofs.Syntax.Safety`.
-/

namespace GeoLint

/-- A parser at work. -/
structure Parser where
  /-- The tokens of the script with the final one. -/
  tokens : List Token
  /-- The index of the next token. -/
  current : Nat
deriving DecidableEq, Repr

namespace Parser

open Token (Kind)
open Parsing (Parsed Stuck Leaves nameOf maxDepth numberValue?)

/-- What should never happen. -/
inductive Fault where
  /-- There is no token where one is read, or where the index is moved to. -/
  | outside
  /-- A loop does not move on. -/
  | standstill
  /-- The text of a number token is no number. -/
  | notANumber (text : String)
deriving DecidableEq, Repr

/-- Why the machine stops. -/
inductive Halt where
  /-- A complaint about the token at a place. -/
  | refused (complaint : Complaint) (position : Position)
  /-- Expressions are nested beyond the limit. -/
  | tooDeep
  /-- Something that should never happen. -/
  | fault (f : Fault)
deriving DecidableEq, Repr

/-- A run of the machine. -/
abbrev Run := EStateM Halt Parser

/-! ### The index -/

/-- The index of the next token. -/
def index : Run Nat := fun s => .ok s.current s

/-- The number of tokens. -/
def size : Run Nat := fun s => .ok s.tokens.length s

/-- The token with this index. -/
def fetch (i : Nat) : Run Token := fun s =>
  match s.tokens[i]? with
  | some t => .ok t s
  | none => .error (.fault .outside) s

/-- Go to the token with this index. -/
def moveTo (i : Nat) : Run Unit := fun s =>
  if i < s.tokens.length then .ok () { s with current := i } else .error (.fault .outside) s

/-- The next token. -/
def peek : Run Token := do
  let i ← index
  fetch i

/-- The token in front of the next one. -/
def previous : Run Token := do
  let i ← index
  match i with
  | 0 => throw (.fault .outside)
  | i + 1 => fetch i

/-- The next token is the final one. -/
def atEnd : Run Bool := do
  let t ← peek
  pure (t.kind = .ending)

/-- Take the next token, unless it is the final one, and give the one in front of the index. -/
def advance : Run Token := do
  let done ← atEnd
  if done then previous
  else do
    let i ← index
    moveTo (i + 1)
    previous

/-- The next token is of this kind and not the final one. -/
def check (kind : Kind) : Run Bool := do
  let done ← atEnd
  if done then pure false
  else do
    let t ← peek
    pure (t.kind = kind)

/-- Take the next token if it is of one of these kinds. -/
def accept : List Kind → Run Bool
  | [] => pure false
  | kind :: kinds => do
    let found ← check kind
    if found then do
      let _ ← advance
      pure true
    else accept kinds

/-- Take a token of this kind, or complain about the one that is there. -/
def consume (kind : Kind) (complaint : Complaint) : Run Token := do
  let found ← check kind
  if found then advance
  else do
    let t ← peek
    throw (.refused complaint t.position)

/-- The value of a number token. -/
def number (text : String) : Run Binary64 :=
  match numberValue? text with
  | some x => pure x
  | none => throw (.fault (.notANumber text))

/-! ### Expressions -/

section Expressions

variable (item : Run Expr)

/-- The sequence ends behind a comma: a trailing comma is allowed, and the group is closed next. -/
def endsAfterComma (trailing : Bool) : Run Bool :=
  if trailing then check .closeParen else pure false

/-- The items behind the first one, each after a comma. -/
def more (trailing : Bool) : Nat → Run (List Expr)
  | 0 => throw (.fault .standstill)
  | fuel + 1 => do
    let comma ← accept [.comma]
    if comma then do
      let ended ← endsAfterComma trailing
      if ended then pure []
      else do
        let e ← item
        let es ← more trailing fuel
        pure (e :: es)
    else pure []

/-- Items separated by commas, if any, in front of a closing token. -/
def items (close : Kind) : Run (List Expr) := do
  let closed ← check close
  if closed then pure []
  else do
    let e ← item
    let fuel ← size
    let es ← more item false fuel
    pure (e :: es)

/-- Items separated by commas, if any, and the place of the closing token. -/
def enclosed (close : Kind) (complaint : Complaint) : Run (List Expr × Position) := do
  let es ← items item close
  let _ ← consume close complaint
  let c ← previous
  pure (es, c.position)

/-- A list. -/
def list : Run Expr := do
  let o ← advance
  let es ← enclosed item .closeBrace .unclosedList
  pure (.list es.1 ⟨o.position, es.2⟩)

/-- A group. -/
def group : Run Expr := do
  let o ← advance
  let closed ← accept [.closeParen]
  if closed then do
    let c ← previous
    pure (.tuple [] ⟨o.position, c.position⟩)
  else do
    let e ← item
    let comma ← check .comma
    if comma then do
      let fuel ← size
      let es ← more item true fuel
      let _ ← consume .closeParen .unclosedGroup
      let c ← previous
      pure (.tuple (e :: es) ⟨o.position, c.position⟩)
    else do
      let _ ← consume .closeParen .unclosedGroup
      pure e

/-- A name or a nested command. -/
def nameOrCall : Run Expr := do
  let f ← consume .identifier .expectedName
  let paren ← check .openParen
  if paren then do
    let _ ← advance
    let as ← enclosed item .closeParen .unclosedCall
    pure (.call (nameOf f) as.1 ⟨f.position, as.2⟩)
  else pure (.name (nameOf f))

/-- An expression, with `item` for the expressions inside it. -/
def starting : Run Expr := do
  let t ← peek
  match t.kind with
  | .number => do
    let _ ← advance
    let x ← number t.text
    pure (.number x (.point t.position))
  | .text => do
    let _ ← advance
    pure (.text t.text (.point t.position))
  | .truth => do
    let _ ← advance
    pure (.truth (t.text = "true") (.point t.position))
  | .openBrace => list item
  | .openParen => group item
  | .identifier => nameOrCall item
  | kind => throw (.refused (.unexpected kind t.text) t.position)

end Expressions

/-- An expression with fewer than `depth` levels. -/
def expression : Nat → Run Expr
  | 0 => throw .tooDeep
  | depth + 1 => starting (expression depth)

/-! ### Statements -/

/-- The statement that calls `command`, from its opening parenthesis on. -/
def callStatement (start : Position) (command : Token) : Run Statement := do
  let _ ← consume .openParen .expectedArguments
  let as ← enclosed (expression maxDepth) .closeParen .unclosedCommand
  pure ⟨nameOf command, as.1, ⟨start, as.2⟩⟩

/-- The next token is a name with a parenthesis behind it.  The index is put back after the look
ahead. -/
def callFollows : Run Bool := do
  let name ← check .identifier
  if name then do
    let saved ← index
    let _ ← advance
    let paren ← check .openParen
    moveTo saved
    pure paren
  else pure false

/-- What follows `target =`. -/
def assignment (start : Position) (target : Token) : Run Statement := do
  let call ← callFollows
  if call then do
    let command ← consume .identifier .expectedName
    callStatement start command
  else do
    let e ← expression maxDepth
    let last ← previous
    pure ⟨nameOf target, [e], ⟨start, last.position⟩⟩

/-- One statement. -/
def statement : Run Statement := do
  let start ← peek
  let first ← consume .identifier .expectedName
  let equals ← accept [.equals]
  if equals then assignment start.position first else callStatement start.position first

/-- Take tokens until the one in front of the index separates statements. -/
def skip : Nat → Run Unit
  | 0 => throw (.fault .standstill)
  | fuel + 1 => do
    let done ← atEnd
    if done then pure ()
    else do
      let t ← previous
      if t.kind.separates then pure ()
      else do
        let _ ← advance
        skip fuel

/-- Move behind the next separator. -/
def synchronize : Run Unit := do
  let _ ← advance
  let fuel ← size
  skip fuel

/-- After a complaint, move behind the broken statement before giving up. -/
def recovering {α : Type} (m : Run α) : Run α := fun s =>
  match m s with
  | .error (.refused complaint position) s =>
    (do synchronize; throw (.refused complaint position) : Run α) s
  | r => r

/-- One round of the top-level loop: a separator or a statement. -/
def round : Run (List Statement) := do
  let separator ← accept [.newline, .semicolon]
  if separator then pure []
  else do
    let s ← recovering statement
    pure [s]

/-- All statements.  Each round has to move on. -/
def statements : Nat → Run (List Statement)
  | 0 => throw (.fault .standstill)
  | fuel + 1 => do
    let done ← atEnd
    if done then pure []
    else do
      let before ← index
      let found ← round
      let behind ← index
      if before < behind then do
        let more ← statements fuel
        pure (found ++ more)
      else throw (.fault .standstill)

/-! ### Scripts -/

/-- Where the last token stands that was taken, or `start` if there is none. -/
def lastPosition (start : Position) : Run Position := do
  let i ← index
  if 0 < i then do
    let last ← previous
    pure last.position
  else pure start

/-- The script that the tokens make up. -/
def script : Run Script := do
  let first ← peek
  let fuel ← size
  let body ← statements fuel
  let stop ← lastPosition first.position
  pure ⟨body, ⟨first.position, stop⟩⟩

/-- Parse a script.  What the parser was used for before is forgotten. -/
def parse (source : String) : Run Script := fun _ =>
  match script ⟨Token.tokenize source, 0⟩ with
  | .error .tooDeep s => (do let t ← peek; throw (.refused .tooDeep t.position) : Run Script) s
  | r => r

end Parser

end GeoLint
