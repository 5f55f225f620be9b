import MiniC.Parse.Program
import MiniC.Text.Blank
import MiniC.Token.Stream

/-!
# Compiling a source

Compiling reads the tokens of a source and builds its program. The end of the
input is an end token or, in a list without one, the end of the list. A syntax
error names the first token at which no program can go on, what was wanted there
instead, and the source line; at the end of the input it is placed on the line of
the last token that was read.
-/

namespace MiniC

/-- A source that is no program. -/
structure SyntaxError where
  /-- What was wanted. -/
  expected : Parse.Expected
  /-- The token found instead; none at the end of the input. -/
  got : Option Token
  /-- The line of the error. -/
  line : Int
  /-- The trimmed source line. -/
  snippet : Text.Bytes
  deriving DecidableEq

namespace SyntaxError

/-- What messages call the token that was found. -/
def gotText (e : SyntaxError) : Text.Bytes :=
  match e.got with
  | some t => t.describe
  | none => "end of file"

/-- The error as one line of text. -/
def message (e : SyntaxError) : Text.Bytes :=
  "line " ++ toString e.line ++ ": expected " ++ e.expected.text ++ ", got " ++ e.gotText

/-- The text that every syntax error comes down to. -/
def cause : String := "syntax error"

/-- The reports of an error, from its message to its cause. -/
def chain (e : SyntaxError) : List Text.Bytes := [e.message, cause]

/-- The error as the outcome of compiling. -/
def compileMessage (e : SyntaxError) : Text.Bytes := "parse: " ++ e.message

/-- The reports of an error as the outcome of compiling. -/
def compileChain (e : SyntaxError) : List Text.Bytes := e.compileMessage :: e.chain

/-- The line of an error at the end of the input: that of the last token before it which is no end
token, and if there is none, of the end token or of the end of the list. -/
def endLine (tokens rest : List Token) : Int :=
  match (tokens.take (tokens.length - rest.length)).reverse.find? (·.kind != .eof) with
  | some t => t.line
  | none => ((rest.head?.or tokens.getLast?).map Token.line).getD 1

/-- Place a fault in the tokens it arose in and in their source. -/
def ofFault (tokens : List Token) (source : Text.Bytes) (fault : Parse.Fault) : SyntaxError :=
  let got := fault.rest.head?.filter (·.kind != .eof)
  let line : Int :=
    match got with
    | some t => t.line
    | none => endLine tokens fault.rest
  { expected := fault.expected, got, line, snippet := Text.snippet source line }

end SyntaxError

/-- Build the program of a token stream; the source serves to quote a line of it. -/
def parse (tokens : List Token) (source : Text.Bytes) : Except SyntaxError Program :=
  match Parse.functions tokens with
  | .ok decls => .ok ⟨decls⟩
  | .error fault => .error (.ofFault tokens source fault)

/-- Build the program of a source. -/
def compile (source : Text.Bytes) : Except SyntaxError Program :=
  parse (lex source).tokens source

end MiniC
