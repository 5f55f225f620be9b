import MiniC.Text.Piece
import MiniC.Text.Printable

/-!
# Quoted text

Text inside a message stands between quotes, so that its ends and its blanks
can be seen. A printable character stands for itself; the quote and the
backslash are preceded by a backslash; the usual control characters have a
letter of their own; every other character is written by its code point in
hexadecimal, with two digits for the remaining control characters, four below
U+10000 and eight from there on. A stray byte is written with two digits.
-/

namespace MiniC.Text

/-- A number in hexadecimal, with at least the given number of digits. -/
def hex (width n : Nat) : List Char :=
  let digits := Nat.toDigits 16 n
  List.replicate (width - digits.length) '0' ++ digits

/-- The letter that names a control character after a backslash. -/
def controlLetter? (c : Char) : Option Char :=
  match c.toNat with
  | 0x07 => some 'a'
  | 0x08 => some 'b'
  | 0x09 => some 't'
  | 0x0A => some 'n'
  | 0x0B => some 'v'
  | 0x0C => some 'f'
  | 0x0D => some 'r'
  | _ => none

/-- How a character is written between the given quotes. -/
def escape (quote c : Char) : List Char :=
  if c = quote ∨ c = '\\' then ['\\', c]
  else if isPrintable c then [c]
  else
    match controlLetter? c with
    | some letter => ['\\', letter]
    | none =>
      if c.toNat < 0x20 ∨ c.toNat = 0x7F then '\\' :: 'x' :: hex 2 c.toNat
      else if c.toNat < 0x10000 then '\\' :: 'u' :: hex 4 c.toNat
      else '\\' :: 'U' :: hex 8 c.toNat

/-- How a piece of a byte text is written between the given quotes. -/
def Piece.escape (quote : Char) : Piece → List Char
  | .char c _ => Text.escape quote c
  | .stray b => '\\' :: 'x' :: hex 2 b.toNat

/-- Escaped content between a pair of quotes. -/
def enclose (quote : Char) (content : List Char) : String :=
  String.ofList (quote :: content ++ [quote])

/-- A single character between single quotes. -/
def quotedChar (c : Char) : String :=
  enclose '\'' (escape '\'' c)

/-- A text between double quotes. -/
def quoted (bs : Bytes) : String :=
  enclose '"' ((pieces bs).flatMap (Piece.escape '"'))

/-- Every escape is visible: it holds at least one character. -/
theorem escape_ne_nil (quote c : Char) : escape quote c ≠ [] := by
  unfold escape
  split
  · simp
  · split
    · simp
    · split
      · simp
      · split
        · simp
        · split <;> simp

end MiniC.Text
