import GeoLint.Syntax.Basic
import GeoLint.Text.Blank
import GeoLint.Token.Scanner

/-!
# Parsing scripts

The grammar, over tokens:

    script      :=  separator* (statement separator*)*
    statement   :=  NAME '=' NAME '(' arguments ')'  |  NAME '=' expression
                 |  NAME '(' arguments ')'
    arguments   :=  [expression (',' expression)*]
    expression  :=  NUMBER | STRING | BOOLEAN | list | group | NAME ['(' arguments ')']
    list        :=  '{' arguments '}'
    group       :=  '(' ')'  |  '(' expression ')'  |  '(' expression (',' expression)* [','] ')'

Each function takes the tokens that are left and gives back a tree with the tokens behind it, or
a `Stuck` at the first token that fits nowhere.  One token of look-ahead tells `P = Point(x)`
from `P = Q`.  Statements need no separator between them.

Expressions nest at most `maxDepth` levels; the level is the argument on which `expression`
recurs.  Sequences recur on a number of tokens that bounds their length.
-/

namespace GeoLint

open Token (Kind)

/-- What is wrong with a script. -/
inductive Complaint where
  /-- A statement starts with something other than a name. -/
  | expectedName
  /-- No parenthesis after a command name. -/
  | expectedArguments
  /-- The arguments of a command are not closed. -/
  | unclosedCommand
  /-- The arguments of a nested command are not closed. -/
  | unclosedCall
  /-- A list is not closed. -/
  | unclosedList
  /-- A group is not closed. -/
  | unclosedGroup
  /-- A token that starts no expression. -/
  | unexpected (kind : Kind) (text : String)
  /-- A number token that spells no number. -/
  | notANumber (text : String)
  /-- Expressions are nested beyond the limit. -/
  | tooDeep
deriving DecidableEq, Repr

/-- The complaint in words. -/
def Complaint.detail : Complaint → String
  | .expectedName => "Expected identifier"
  | .expectedArguments => "Expected '(' after command name"
  | .unclosedCommand => "Expected ')' after arguments"
  | .unclosedCall => "Expected ')' after function arguments"
  | .unclosedList => "Expected '\x7d'"
  | .unclosedGroup => "Expected ')'"
  | .unexpected kind text => s!"Unexpected token: {kind.label} (value: '{text}')"
  | .notANumber text => s!"Not a number: {text}"
  | .tooDeep => "Expression nested too deeply"

/-- Why a script has no tree. -/
structure SyntaxError where
  /-- What is wrong. -/
  complaint : Complaint
  /-- Where the offending token stands. -/
  position : Position
  /-- How many tokens come before the offending one. -/
  offender : Nat
  /-- How many tokens come before the place where the next statement can start. -/
  resume : Nat
deriving DecidableEq, Repr

/-- The error in words, with its place. -/
def SyntaxError.message (e : SyntaxError) : String :=
  s!"Parse error at line {e.position.line}, column {e.position.column}: {e.complaint.detail}"

namespace Parsing

/-- A complaint, and the tokens from the offending one on; none are left if the script ended too
early. -/
structure Stuck where
  /-- What is wrong. -/
  complaint : Complaint
  /-- The tokens from the offending one on. -/
  rest : List Token
deriving DecidableEq, Repr

/-- A piece of a tree. -/
structure Parsed (α : Type) where
  /-- The piece. -/
  value : α
  /-- Where the last of its tokens stands. -/
  last : Position
  /-- The tokens behind it. -/
  rest : List Token

/-- Expressions nest less deep than this. -/
def maxDepth : Nat := 1000

/-- The next token is of this kind. -/
def nextIs (kind : Kind) : List Token → Bool
  | [] => false
  | t :: _ => t.kind = kind

/-- Take a token of this kind, or complain. -/
def expect (kind : Kind) (complaint : Complaint) : List Token → Except Stuck (Token × List Token)
  | [] => .error ⟨complaint, []⟩
  | t :: ts => if t.kind = kind then .ok (t, ts) else .error ⟨complaint, t :: ts⟩

/-- The value of a number token.  Where a mark of an exponent has no digits behind it, the mark
does not count. -/
def numberValue? (text : String) : Option Binary64 :=
  let cs := text.toList
  Binary64.parse? cs <|>
    Binary64.parse? (Text.dropEndWhile (fun c => c = 'e' || c = 'E' || c = '+' || c = '-') cs)

/-- The name of a token. -/
def nameOf (t : Token) : Name := ⟨t.text, .point t.position⟩

/-! ### Sequences -/

section Sequences

variable (item : List Token → Except Stuck (Parsed Expr))

/-- The items behind the first one, each after a comma.  With `trailing`, a comma right before a
closing parenthesis ends the sequence. -/
def more (trailing : Bool) : Nat → List Token → Except Stuck (List Expr × List Token)
  | fuel + 1, t :: ts =>
    if t.kind = .comma then
      if trailing && nextIs .closeParen ts then .ok ([], ts)
      else do
        let e ← item ts
        let (es, rest) ← more trailing fuel e.rest
        return (e.value :: es, rest)
    else .ok ([], t :: ts)
  | _, ts => .ok ([], ts)

/-- Items separated by commas, if any, up to the closing token. -/
def enclosed (close : Kind) (complaint : Complaint) (ts : List Token) :
    Except Stuck (Parsed (List Expr)) := do
  let (es, rest) ←
    if nextIs close ts then pure ([], ts)
    else do
      let e ← item ts
      let (es, rest) ← more item false e.rest.length e.rest
      pure (e.value :: es, rest)
  let (t, rest) ← expect close complaint rest
  return ⟨es, t.position, rest⟩

/-- The rest of a group whose opening parenthesis stands at `start`. -/
def group (start : Position) (ts : List Token) : Except Stuck (Parsed Expr) :=
  match ts with
  | t :: rest =>
    if t.kind = .closeParen then .ok ⟨.tuple [] ⟨start, t.position⟩, t.position, rest⟩
    else do
      let e ← item ts
      if nextIs .comma e.rest then
        let (es, rest) ← more item true e.rest.length e.rest
        let (t, rest) ← expect .closeParen .unclosedGroup rest
        return ⟨.tuple (e.value :: es) ⟨start, t.position⟩, t.position, rest⟩
      else
        let (t, rest) ← expect .closeParen .unclosedGroup e.rest
        return ⟨e.value, t.position, rest⟩
  | [] => item []

/-- A name, or a nested command if a parenthesis follows it. -/
def nameOrCall (t : Token) : List Token → Except Stuck (Parsed Expr)
  | p :: ts =>
    if p.kind = .openParen then do
      let as ← enclosed item .closeParen .unclosedCall ts
      return ⟨.call (nameOf t) as.value ⟨t.position, as.last⟩, as.last, as.rest⟩
    else .ok ⟨.name (nameOf t), t.position, p :: ts⟩
  | [] => .ok ⟨.name (nameOf t), t.position, []⟩

/-- An expression that starts with token `t`, with `item` for the expressions inside it. -/
def starting (t : Token) (ts : List Token) : Except Stuck (Parsed Expr) :=
  match t.kind with
  | .number =>
    match numberValue? t.text with
    | some x => .ok ⟨.number x (.point t.position), t.position, ts⟩
    | none => .error ⟨.notANumber t.text, t :: ts⟩
  | .text => .ok ⟨.text t.text (.point t.position), t.position, ts⟩
  | .truth => .ok ⟨.truth (t.text = "true") (.point t.position), t.position, ts⟩
  | .openBrace => do
    let es ← enclosed item .closeBrace .unclosedList ts
    return ⟨.list es.value ⟨t.position, es.last⟩, es.last, es.rest⟩
  | .openParen => group item t.position ts
  | .identifier => nameOrCall item t ts
  | kind => .error ⟨.unexpected kind t.text, t :: ts⟩

end Sequences

/-! ### Expressions and statements -/

/-- An expression with fewer than `depth` levels. -/
def expression : Nat → List Token → Except Stuck (Parsed Expr)
  | 0, ts => .error ⟨.tooDeep, ts⟩
  | _ + 1, [] => .error ⟨.unexpected .ending "", []⟩
  | depth + 1, t :: ts => starting (expression depth) t ts

/-- The statement that calls `command`, from its opening parenthesis on. -/
def callStatement (start : Position) (command : Token) (ts : List Token) :
    Except Stuck (Parsed Statement) := do
  let (_, ts) ← expect .openParen .expectedArguments ts
  let as ← enclosed (expression maxDepth) .closeParen .unclosedCommand ts
  return ⟨⟨nameOf command, as.value, ⟨start, as.last⟩⟩, as.last, as.rest⟩

/-- What follows `target =`. -/
def assignment (target : Token) (ts : List Token) : Except Stuck (Parsed Statement) :=
  let plain : Except Stuck (Parsed Statement) := do
    let e ← expression maxDepth ts
    return ⟨⟨nameOf target, [e.value], ⟨target.position, e.last⟩⟩, e.last, e.rest⟩
  match ts with
  | c :: p :: rest =>
    if c.kind = .identifier && p.kind = .openParen then
      callStatement target.position c (p :: rest)
    else plain
  | _ => plain

/-- One statement. -/
def statement (ts : List Token) : Except Stuck (Parsed Statement) := do
  let (first, rest) ← expect .identifier .expectedName ts
  match rest with
  | t :: after =>
    if t.kind = .equals then assignment first after else callStatement first.position first rest
  | [] => callStatement first.position first []

/-- All statements, with separators anywhere between them. -/
def statements : Nat → List Token → Except Stuck (List Statement)
  | fuel + 1, t :: ts =>
    if t.kind.separates then statements fuel ts
    else do
      let s ← statement (t :: ts)
      let more ← statements fuel s.rest
      return s.value :: more
  | _, _ => .ok []

/-! ### Scripts -/

/-- The tokens behind the next separator, where the next statement can start. -/
def recover (ts : List Token) : List Token :=
  (ts.dropWhile fun t => !t.kind.separates).drop 1

/-- Where the tokens start, or `stop` if none are left. -/
def headPosition (stop : Position) : List Token → Position
  | [] => stop
  | t :: _ => t.position

/-- The script of a list of tokens that ends at `stop`. -/
def script (ts : List Token) (stop : Position) : Except SyntaxError Script :=
  match statements ts.length ts with
  | .ok body =>
    let start := headPosition stop ts
    .ok ⟨body, ⟨start, (ts.getLast?.map Token.position).getD start⟩⟩
  | .error stuck =>
    .error
      { complaint := stuck.complaint
        position := headPosition stop stuck.rest
        offender := ts.length - stuck.rest.length
        resume := ts.length - (recover stuck.rest).length }

end Parsing

/-- The tree of a script. -/
def Script.parse (source : String) : Except SyntaxError Script :=
  let (ts, stop) := Token.scan source
  Parsing.script ts stop

end GeoLint
