import MiniC.Number.Binary64

/-!
# The fewest digits that read back

The reals that round to a floating value form an interval around it: it reaches
halfway to the neighbour on either side, ends included exactly when the
mantissa is even. A decimal in that interval reads back as the value. Among
them the shortest is chosen, of several shortest the nearest to the value, and
of two equally near the even one.

Every bound of the interval is a whole number of units `10 ^ (-places)` for
enough places, so the search is over natural numbers: it drops as many final
digits as it can, and keeping them all always succeeds.
-/

namespace MiniC.Shortest

/-- A decimal number `digits * 10 ^ exponent`. -/
structure Decimal where
  /-- The digits, read as a natural number. -/
  digits : Nat
  /-- The power of ten of the last digit. -/
  exponent : Int
  deriving DecidableEq, Repr

/-- The interval of numbers that read back as a value, in units of `10 ^ (-places)`. -/
structure Interval where
  /-- How many decimal places a unit stands for. -/
  places : Nat
  /-- The lower end. -/
  low : Nat
  /-- The value itself. -/
  value : Nat
  /-- The upper end. -/
  high : Nat
  /-- Whether the ends belong to the interval. -/
  closed : Bool
  deriving DecidableEq, Repr

/-- The interval around `mantissa * 2 ^ exponent`. The neighbour below a power of two is
half as far away as the one above, except at the least exponent. -/
def Interval.around (mantissa : Nat) (exponent : Int) : Interval :=
  let places := (2 - exponent).toNat
  let unit := Nat.pow 5 places <<< (exponent - 2).toNat
  let near := mantissa = Binary64.leadingBit ∧ exponent ≠ -1074
  { places
    low := (4 * mantissa - (if near then 1 else 2)) * unit
    value := 4 * mantissa * unit
    high := (4 * mantissa + 2) * unit
    closed := mantissa % 2 = 0 }

/-- Whether a number of units lies in the interval. -/
def Interval.contains (i : Interval) (n : Nat) : Bool :=
  (i.low < n && n < i.high) || (i.closed && (n = i.low || n = i.high))

/-- The best multiple of `10 ^ dropped` units in the interval, divided by `10 ^ dropped`. -/
def Interval.grid? (i : Interval) (dropped : Nat) : Option Nat :=
  let step := Nat.pow 10 dropped
  let below := i.value / step
  let above := below + 1
  match i.contains (below * step), i.contains (above * step) with
  | true, true =>
    let twice := 2 * i.value
    let middle := (below + above) * step
    if twice < middle ∨ (twice = middle ∧ below % 2 = 0) then some below else some above
  | true, false => some below
  | false, true => some above
  | false, false => none

/-- Drop the most digits, at most the given number, that leave a number in the interval. -/
def Interval.search (i : Interval) : Nat → Decimal
  | 0 => ⟨i.value, -i.places⟩
  | dropped + 1 =>
    match i.grid? (dropped + 1) with
    | some digits => ⟨digits, (dropped + 1 : Nat) - i.places⟩
    | none => i.search dropped

/-- The shortest decimal that reads back as `mantissa * 2 ^ exponent`. -/
def shortest (mantissa : Nat) (exponent : Int) : Decimal :=
  let i := Interval.around mantissa exponent
  i.search ((Nat.toDigits 10 i.value).length - 1)

end MiniC.Shortest
