import MiniC.Text.Column
import MiniC.Text.Quoted
import MiniC.Value

/-!
# Tokens

A token has a kind, the text it was read from and the line it starts on. The
text of a string token is its decoded content, and a number token carries its
value beside its text.
-/

namespace MiniC

/-- The kinds of tokens. -/
inductive Kind where
  /-- The end of the input. -/
  | eof
  /-- The name of a type. -/
  | type
  /-- A reserved word that names no type. -/
  | keyword
  /-- The name of a variable or function. -/
  | identifier
  /-- A decimal literal. -/
  | number
  /-- A string literal. -/
  | string
  /-- An operator sign. -/
  | operator
  /-- A separator or bracket. -/
  | punct
  /-- A kind outside the language, known by its number only. -/
  | other (n : Int)
  deriving DecidableEq, Repr

/-- The name of a kind. -/
def Kind.name : Kind → String
  | .eof => "EOF"
  | .type => "TYPE"
  | .keyword => "KEYWORD"
  | .identifier => "IDENTIFIER"
  | .number => "NUMBER"
  | .string => "STRING"
  | .operator => "OPERATOR"
  | .punct => "PUNCT"
  | .other n => "TokenType(" ++ toString n ++ ")"

/-- A lexical unit of a source. -/
structure Token where
  /-- What kind of unit it is. -/
  kind : Kind
  /-- The source text, or the decoded content of a string literal. -/
  lexeme : Text.Bytes
  /-- The line the token starts on, counted from one. -/
  line : Int
  /-- The value of a number token. -/
  value : Value := .zero
  deriving DecidableEq

namespace Token

/-- Whether a token has the given kind and text. -/
def is (t : Token) (kind : Kind) (lexeme : Text.Bytes) : Bool :=
  t.kind = kind && t.lexeme = lexeme

/-- A kind together with a quoted text, as messages name tokens. -/
def naming (kind : Kind) (lexeme : Text.Bytes) : Text.Bytes :=
  kind.name ++ " " ++ Text.quoted lexeme

/-- What messages call a token. -/
def describe (t : Token) : Text.Bytes :=
  if t.kind = .eof then "end of file" else naming t.kind t.lexeme

/-- A token as one line of text: its kind, its quoted text and its line, in columns. -/
def text (t : Token) : Text.Bytes :=
  Text.column 10 t.kind.name ++ " " ++ Text.column 14 (Text.quoted t.lexeme) ++ "  line " ++
    toString t.line

end Token

end MiniC
