import MiniC.Diagnostic
import MiniC.Token
import MiniC.Token.Element

/-!
# The token stream of a source

Reading a source never fails. Every element that carries meaning becomes one
token, in order, and the stream ends with a token that marks the end of the
input. Elements that are read in spite of a flaw are reported as warnings: a
skipped character, an integer too large for 64 bits, a comment or string that
is never closed. Lines are counted by the line feeds before an element.
-/

namespace MiniC

/-- The reserved words that name types. -/
def typeWords : List String := ["int", "float", "double", "char", "void"]

/-- The other reserved words. -/
def keywords : List String :=
  ["if", "else", "while", "for", "return", "include", "define"]

/-- The kind of token that a word is. -/
def wordKind (word : String) : Kind :=
  if keywords.contains word then .keyword
  else if typeWords.contains word then .type
  else .identifier

/-- The number that decimal digits denote. -/
def decimal (digits : List Char) : Nat :=
  digits.foldl (fun n c => 10 * n + (c.toNat - '0'.toNat)) 0

/-- The value of a literal: an integer if it has no point and fits in 64 bits, and otherwise
the nearest floating number. -/
def literalValue (whole : List Char) : Option (List Char) → Value
  | none =>
    if Value.fits (decimal whole) then .int (Int64.ofNat (decimal whole))
    else .float (Float.ofScientific (decimal whole) false 0)
  | some fraction =>
    .float (Float.ofScientific (decimal (whole ++ fraction)) true fraction.length)

/-- The character that an escaped character stands for. -/
def unescaped (c : Char) : Char :=
  if c = 'n' then '\n' else if c = 't' then '\t' else c

/-- The content of a string literal: escapes are decoded, and a backslash at the very end of
the source stands for nothing. -/
def unescape : List Char → List Char
  | [] => []
  | [c] => if c = '\\' then [] else [c]
  | c :: d :: rest =>
    if c = '\\' then unescaped d :: unescape rest else c :: unescape (d :: rest)

/-- A flaw that reading passes over. -/
inductive Flaw where
  /-- An integer literal that does not fit in 64 bits. -/
  | integerOutOfRange (digits : List Char)
  /-- A block comment that the source ends in. -/
  | openComment
  /-- A string literal that the source ends in. -/
  | openString
  /-- A character that starts no element of the language. -/
  | unexpected (c : Char)
  deriving DecidableEq, Repr

/-- What is reported about a flaw. -/
def Flaw.message : Flaw → String
  | .integerOutOfRange digits =>
    "integer literal " ++ String.ofList digits ++ " out of range, treated as floating"
  | .openComment => "unterminated block comment"
  | .openString => "unterminated string literal"
  | .unexpected c => "unexpected character " ++ Text.quotedChar c ++ " skipped"

namespace Element

/-- The token that an element on the given line is, if it carries meaning. -/
def token? (line : Int) : Element → Option Token
  | .number whole fraction =>
    some { kind := .number, lexeme := String.ofList (text (.number whole fraction)), line,
           value := literalValue whole fraction }
  | .word text => some { kind := wordKind (String.ofList text), lexeme := String.ofList text, line }
  | .quotation body _ => some { kind := .string, lexeme := String.ofList (unescape body), line }
  | .operator c equals =>
    some { kind := .operator, lexeme := String.ofList (text (.operator c equals)), line }
  | .punct c => some { kind := .punct, lexeme := String.ofList [c], line }
  | _ => none

/-- The flaw of an element, if it has one. -/
def flaw? : Element → Option Flaw
  | .comment _ false => some .openComment
  | .quotation _ false => some .openString
  | .number whole none =>
    if Value.fits (decimal whole) then none else some (.integerOutOfRange whole)
  | .unknown c => some (.unexpected c)
  | _ => none

/-- Give each element the line it starts on. -/
def located (line : Nat) : List Element → List (Nat × Element)
  | [] => []
  | e :: es => (line, e) :: located (line + e.text.count '\n') es

end Element

/-- What reading a source yields. -/
structure Lexed where
  /-- The tokens, the end of the input included. -/
  tokens : List Token
  /-- The flaws that were passed over, in order. -/
  diagnostics : List Diagnostic
  deriving DecidableEq

/-- The token that marks the end of the input. -/
def endToken (line : Int) : Token := { kind := .eof, lexeme := "", line }

/-- Read the characters of a source. -/
def lexChars (cs : List Char) : Lexed :=
  let elements := Element.located 1 (Element.split cs)
  { tokens :=
      elements.filterMap (fun (line, e) => e.token? line) ++ [endToken (1 + cs.count '\n' : Nat)]
    diagnostics :=
      elements.filterMap fun (line, e) => e.flaw?.map fun f => .warning line f.message }

/-- Read a source. -/
def lex (source : Text.Bytes) : Lexed := lexChars (Text.chars source)

end MiniC
