import Mathlib.Data.Nat.Digits.Defs
import MiniC.Token.Stream

/-!
# The lexical grammar

Which character texts are tokens and which are passed over, said without
reference to how a source is read. Both are judged with what follows them in
view: a line comment ends where its line ends, and a comment or string that is
never closed runs to the end of the source. Where several texts could stand at
the front of a source, the longest is meant.
-/

namespace MiniC.Lexical

open Element

/-- A run of decimal digits. -/
def Digits (s : List Char) : Prop := s ≠ [] ∧ ∀ c ∈ s, '0' ≤ c ∧ c ≤ '9'

/-- The number that a run of digits denotes in decimal notation. -/
def numeral (s : List Char) : Nat := Nat.ofDigits 10 (s.reverse.map fun c => c.toNat - '0'.toNat)

/-- The operator signs. -/
def operators : List (List Char) :=
  [['=', '='], ['!', '='], ['<', '='], ['>', '='], ['='], ['!'], ['<'], ['>'], ['+'], ['-'], ['*'],
    ['/'], ['%'], ['&'], ['|'], ['^']]

/-- The separators and brackets. -/
def punctuators : List (List Char) :=
  [[';'], [','], ['('], [')'], ['\x7b'], ['\x7d'], ['['], [']']]

/-- The kind of token that a word is. -/
inductive WordKind (word : String) : Kind → Prop
  | keyword : word ∈ keywords → WordKind word .keyword
  | type : word ∈ typeWords → WordKind word .type
  | identifier : word ∉ keywords → word ∉ typeWords → WordKind word .identifier

/-- What stands between the quotes of a string, and the content it is written for. -/
inductive Content : List Char → List Char → Prop
  | nil : Content [] []
  | plain {c : Char} {body content : List Char} :
    c ≠ '"' → c ≠ '\\' → Content body content → Content (c :: body) (c :: content)
  | lineFeed {body content : List Char} :
    Content body content → Content ('\\' :: 'n' :: body) ('\n' :: content)
  | tab {body content : List Char} :
    Content body content → Content ('\\' :: 't' :: body) ('\t' :: content)
  | escaped {c : Char} {body content : List Char} :
    c ≠ 'n' → c ≠ 't' → Content body content → Content ('\\' :: c :: body) (c :: content)

/-- The texts of tokens, with what may follow them, the tokens they stand for and the flaws that
are passed over in them. A string that is never closed may end in a backslash, which stands for
nothing. -/
inductive TokenText : List Char → List Char → Token → Option Flaw → Prop
  | integer {s rest : List Char} {line : Int} {i : Int64} :
    Digits s → numeral s < 2 ^ 63 → i.toInt = numeral s →
      TokenText s rest { kind := .number, lexeme := String.ofList s, line, value := .int i } none
  | largeInteger {s rest : List Char} {line : Int} :
    Digits s → 2 ^ 63 ≤ numeral s →
      TokenText s rest
        { kind := .number, lexeme := String.ofList s, line,
          value := .float (Float.ofScientific (numeral s) false 0) }
        (some (.integerOutOfRange s))
  | floating {whole fraction rest : List Char} {line : Int} :
    Digits whole → Digits fraction →
      TokenText (whole ++ '.' :: fraction) rest
        { kind := .number, lexeme := String.ofList (whole ++ '.' :: fraction), line,
          value :=
            .float (Float.ofScientific (numeral (whole ++ fraction)) true fraction.length) }
        none
  | word {c : Char} {cs rest : List Char} {line : Int} {kind : Kind} :
    startsWord c → (∀ d ∈ cs, continuesWord d) → WordKind (String.ofList (c :: cs)) kind →
      TokenText (c :: cs) rest { kind, lexeme := String.ofList (c :: cs), line } none
  | string {body content rest : List Char} {line : Int} :
    Content body content →
      TokenText ('"' :: (body ++ ['"'])) rest
        { kind := .string, lexeme := String.ofList content, line } none
  | openString {body content backslash : List Char} {line : Int} :
    Content body content → backslash = [] ∨ backslash = ['\\'] →
      TokenText ('"' :: (body ++ backslash)) []
        { kind := .string, lexeme := String.ofList content, line } (some .openString)
  | operator {sign rest : List Char} {line : Int} :
    sign ∈ operators →
      TokenText sign rest { kind := .operator, lexeme := String.ofList sign, line } none
  | punct {sign rest : List Char} {line : Int} :
    sign ∈ punctuators →
      TokenText sign rest { kind := .punct, lexeme := String.ofList sign, line } none

/-- The characters that start nothing of the language. -/
structure Unknown (c : Char) : Prop where
  not_blank : Text.isBlank c = false
  not_digit : isDigit c = false
  not_word : startsWord c = false
  not_quote : c ≠ '"'
  not_directive : c ≠ '#'
  not_sign : ∀ sign ∈ operators ++ punctuators, sign.head? ≠ some c

/-- The texts that are passed over, with what may follow them and the flaws in them. -/
inductive SkippedText : List Char → List Char → Option Flaw → Prop
  | blank {c : Char} {rest : List Char} : Text.isBlank c → SkippedText [c] rest none
  | lineComment {body rest : List Char} :
    '\n' ∉ body → (∀ c ∈ rest.head?, c = '\n') → SkippedText ('/' :: '/' :: body) rest none
  | directive {body rest : List Char} :
    '\n' ∉ body → (∀ c ∈ rest.head?, c = '\n') → SkippedText ('#' :: body) rest none
  | comment {body rest : List Char} :
    ¬ ['*', '/'] <:+: body → SkippedText ('/' :: '*' :: (body ++ ['*', '/'])) rest none
  | openComment {body : List Char} :
    ¬ ['*', '/'] <:+: body → SkippedText ('/' :: '*' :: body) [] (some .openComment)
  | unknown {c : Char} {rest : List Char} :
    Unknown c → SkippedText [c] rest (some (.unexpected c))

/-- Something of the language, or something to pass over. -/
def Stands (s rest : List Char) : Prop :=
  (∃ t flaw, TokenText s rest t flaw) ∨ ∃ flaw, SkippedText s rest flaw

/-- Nothing longer stands at the front of the same source. -/
def Longest (s rest : List Char) : Prop :=
  ∀ s' rest', s' ++ rest' = s ++ rest → Stands s' rest' → s'.length ≤ s.length

end MiniC.Lexical
