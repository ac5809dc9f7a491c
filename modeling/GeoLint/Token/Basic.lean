import GeoLint.Position

/-!
# Tokens

A token is a kind, a text and the position where it starts.  For a string literal the text is
what the literal stands for; for every other kind it is the text of the script itself.
-/

namespace GeoLint

namespace Token

/-- The kinds of token. -/
inductive Kind where
  /-- A name. -/
  | identifier
  /-- A number. -/
  | number
  /-- A string literal. -/
  | text
  /-- `true` or `false`. -/
  | truth
  /-- An opening parenthesis. -/
  | openParen
  /-- A closing parenthesis. -/
  | closeParen
  /-- An opening brace. -/
  | openBrace
  /-- A closing brace. -/
  | closeBrace
  /-- A comma. -/
  | comma
  /-- An equals sign. -/
  | equals
  /-- A semicolon. -/
  | semicolon
  /-- The end of a line. -/
  | newline
  /-- The end of the script. -/
  | ending
  /-- A character that starts no token. -/
  | unknown
deriving DecidableEq, Repr

namespace Kind

/-- The name of a kind in messages and listings. -/
def label : Kind → String
  | .identifier => "IDENTIFIER"
  | .number => "NUMBER"
  | .text => "STRING"
  | .truth => "BOOLEAN"
  | .openParen => "LPAREN"
  | .closeParen => "RPAREN"
  | .openBrace => "LBRACE"
  | .closeBrace => "RBRACE"
  | .comma => "COMMA"
  | .equals => "EQUALS"
  | .semicolon => "SEMICOLON"
  | .newline => "NEWLINE"
  | .ending => "EOF"
  | .unknown => "UNKNOWN"

/-- The kind of a character that is a token by itself. -/
def ofChar : Char → Kind
  | '(' => .openParen
  | ')' => .closeParen
  | '{' => .openBrace
  | '}' => .closeBrace
  | ',' => .comma
  | '=' => .equals
  | ';' => .semicolon
  | '\n' => .newline
  | _ => .unknown

/-- The token ends a statement. -/
def separates (k : Kind) : Bool :=
  k = .newline || k = .semicolon

end Kind

end Token

/-- A token of a script. -/
structure Token where
  /-- What the token is. -/
  kind : Token.Kind
  /-- Its text; for a string literal, the text it stands for. -/
  text : String
  /-- Where it starts. -/
  position : Position
deriving DecidableEq, Repr

/-- The token that ends a script. -/
def Token.final (p : Position) : Token := ⟨.ending, "", p⟩

end GeoLint
