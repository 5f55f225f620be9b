import MiniC.Number.Binary64
import MiniC.Number.Shortest

/-!
# Floating values as text

A floating value is written with the fewest digits that read back, and always
so that it reads as floating: positionally with at least one place after the
point while the leading digit stands between `10 ^ (-4)` and `10 ^ 15`, and
otherwise with an exponent that has a sign and at least two digits.
-/

namespace MiniC.FloatText

open Shortest

/-- The decimal digits of a number without the zeros at its end. -/
def significant (n : Nat) : List Char :=
  ((Nat.toDigits 10 n).reverse.dropWhile (· == '0')).reverse

/-- Digits with the point behind the first `point` of them; zeros fill up either side. -/
def positional (digits : List Char) (point : Int) : List Char :=
  if point ≤ 0 then
    ['0', '.'] ++ List.replicate (-point).toNat '0' ++ digits
  else if digits.length ≤ point.toNat then
    digits ++ List.replicate (point.toNat - digits.length) '0' ++ ['.', '0']
  else digits.take point.toNat ++ '.' :: digits.drop point.toNat

/-- A power of ten: a sign and at least two digits. -/
def exponentPart (e : Int) : List Char :=
  let digits := Nat.toDigits 10 e.natAbs
  'e' :: (if e < 0 then '-' else '+') :: List.replicate (2 - digits.length) '0' ++ digits

/-- Digits written with the point after the first one and a power of ten. -/
def scientific (digits : List Char) (e : Int) : List Char :=
  match digits with
  | [] => exponentPart e
  | [d] => d :: exponentPart e
  | d :: rest => d :: '.' :: rest ++ exponentPart e

/-- The least power of ten whose digit still leads a positional text. -/
def leastPositional : Int := -4

/-- The least power of ten whose digit no longer leads a positional text. -/
def positionalBound : Int := 16

/-- A positive decimal number as text. -/
def layout (d : Decimal) : List Char :=
  let lead : Int := (Nat.toDigits 10 d.digits).length + d.exponent - 1
  let digits := significant d.digits
  if leastPositional ≤ lead ∧ lead < positionalBound then positional digits (lead + 1)
  else scientific digits lead

/-- The text of a magnitude. -/
def magnitude (mantissa : Nat) (exponent : Int) : List Char :=
  if mantissa = 0 then ['0', '.', '0'] else layout (shortest mantissa exponent)

end MiniC.FloatText

namespace MiniC

/-- A floating value as text. -/
def floatText (f : Float) : String :=
  match Binary64.read f with
  | .nan => "nan"
  | .infinite false => "inf"
  | .infinite true => "-inf"
  | .finite false mantissa exponent => String.ofList (FloatText.magnitude mantissa exponent)
  | .finite true mantissa exponent =>
    String.ofList ('-' :: FloatText.magnitude mantissa exponent)

end MiniC
