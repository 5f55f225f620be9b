/-!
# What a floating value stands for

A floating value is read from its 64 bits: it is not a number, an infinity, or
a whole multiple of a power of two. Truncation, the test for whole values and
the remainder are computed on that reading in exact integers, so no rounding
can enter them.
-/

namespace MiniC.Binary64

/-- What the bits of a floating value stand for. -/
inductive Reading where
  /-- Not a number. -/
  | nan
  /-- An infinity. -/
  | infinite (negative : Bool)
  /-- The number `± mantissa * 2 ^ exponent`; zero keeps its sign. -/
  | finite (negative : Bool) (mantissa : Nat) (exponent : Int)
  deriving DecidableEq, Repr

/-- The weight of the leading bit of a full mantissa, `2 ^ 52`. -/
def leadingBit : Nat := 0x10000000000000

/-- The weight of the sign bit, `2 ^ 63`. -/
def signBit : Nat := 0x8000000000000000

/-- Read a bit pattern: a sign bit, eleven bits of exponent, 52 bits of fraction. -/
def readBits (bits : Nat) : Reading :=
  let negative := decide (bits / signBit % 2 = 1)
  let exponent : Nat := bits / leadingBit % 2048
  let fraction := bits % leadingBit
  if exponent = 2047 then
    if fraction = 0 then .infinite negative else .nan
  else if exponent = 0 then .finite negative fraction (-1074)
  else .finite negative (leadingBit + fraction) ((exponent : Int) - 1075)

/-- What a floating value stands for. -/
def read (f : Float) : Reading := readBits f.toBits.toNat

/-- Put a sign before a natural number. -/
def signed (negative : Bool) (n : Nat) : Int :=
  if negative then -n else n

/-- The numerator of `mantissa * 2 ^ exponent` as a fraction. -/
def numerator (mantissa : Nat) (exponent : Int) : Nat := mantissa <<< exponent.toNat

/-- The denominator of every multiple of `2 ^ exponent` as a fraction. -/
def denominator (exponent : Int) : Nat := 1 <<< (-exponent).toNat

/-- A finite number without its fractional part; there is none for the others. -/
def Reading.truncated? : Reading → Option Int
  | .finite negative mantissa exponent =>
    some (signed negative (numerator mantissa exponent / denominator exponent))
  | _ => none

/-- The integer that a reading equals exactly, if there is one. -/
def Reading.whole? : Reading → Option Int
  | .finite negative mantissa exponent =>
    if numerator mantissa exponent % denominator exponent = 0 then
      some (signed negative (numerator mantissa exponent / denominator exponent))
    else none
  | _ => none

/-- A whole reading is its own truncation. -/
theorem Reading.truncated?_of_whole? {r : Reading} {i : Int} (h : r.whole? = some i) :
    r.truncated? = some i := by
  cases r with
  | finite negative mantissa exponent =>
    simp only [Reading.whole?] at h
    split at h
    · exact h
    · cases h
  | nan => cases h
  | infinite => cases h

/-- The value that is not a number. -/
def nan : Float := Float.ofBits 0x7FF8000000000000

/-- The floating value `± mantissa * 2 ^ exponent`, for a mantissa below `2 ^ 53` and a
number that is in range and needs no rounding. -/
def write (negative : Bool) (mantissa : Nat) (exponent : Int) : Float :=
  let shift := min (52 - Nat.log2 mantissa) (exponent + 1074).toNat
  let mantissa := mantissa <<< shift
  let magnitude :=
    if mantissa < leadingBit then mantissa
    else (exponent - shift + 1075).toNat * leadingBit + (mantissa - leadingBit)
  Float.ofBits (UInt64.ofNat ((if negative then signBit else 0) + magnitude))

/-- The remainder of a division truncated toward zero, computed exactly. It has the sign of
the dividend, an infinite divisor leaves the dividend alone, and there is no remainder by
zero or of an infinity. -/
def remainder (x y : Float) : Float :=
  match read x, read y with
  | .finite negative m e, .finite _ n d =>
    if n = 0 then nan
    else
      let low := min e d
      write negative ((m <<< (e - low).toNat) % (n <<< (d - low).toNat)) low
  | .finite .., .infinite _ => x
  | _, _ => nan

end MiniC.Binary64
