import MiniC.Operator
import MiniC.Text.Quoted
import MiniC.Value

/-!
# Arithmetic

Two integers are added, subtracted and multiplied modulo `2 ^ 64`, and divided
toward zero. As soon as one operand is floating, both are. Bitwise operators
work on truncated operands, comparisons yield one or zero, and only division
and remainder can fail.
-/

namespace MiniC

/-- Why an operation has no value. -/
inductive Cause where
  /-- The divisor is zero. -/
  | divisionByZero
  /-- The language has no operator with this sign. -/
  | unsupportedOperator (symbol : Text.Bytes)
  deriving DecidableEq, Repr

/-- What is reported about a cause. -/
def Cause.message : Cause → Text.Bytes
  | .divisionByZero => "division by zero"
  | .unsupportedOperator symbol => "unsupported operator " ++ Text.quoted symbol

/-- How two floating numbers compare; one that is not a number compares with none. -/
def compareFloat (a b : Float) : Option Ordering :=
  if a < b then some .lt
  else if b < a then some .gt
  else if a == b then some .eq
  else none

/-- How two integers compare. -/
def compareInt (a b : Int64) : Ordering :=
  if a < b then .lt else if b < a then .gt else .eq

/-- How two values compare. -/
def Value.compare? : Value → Value → Option Ordering
  | .int a, .int b => some (compareInt a b)
  | x, y => compareFloat x.asFloat y.asFloat

/-- The value of a condition. -/
def Value.ofBool (b : Bool) : Value := .int (if b then 1 else 0)

namespace Operator

/-- Combine two values: integers by one function, and by the other if one is floating. -/
def combine (onInts : Int64 → Int64 → Int64) (onFloats : Float → Float → Float) :
    Value → Value → Value
  | .int a, .int b => .int (onInts a b)
  | x, y => .float (onFloats x.asFloat y.asFloat)

/-- Whether a value is zero as a divisor. -/
def isZero : Value → Bool
  | .int i => i == 0
  | .float f => f == 0

/-- Divide by a value that must not be zero. -/
def divide (onInts : Int64 → Int64 → Int64) (onFloats : Float → Float → Float) (x y : Value) :
    Except Cause Value :=
  if isZero y then .error .divisionByZero else .ok (combine onInts onFloats x y)

/-- Apply an operator to two values. -/
def apply (op : Operator) (x y : Value) : Except Cause Value :=
  match op with
  | .add => .ok (combine (· + ·) (· + ·) x y)
  | .sub => .ok (combine (· - ·) (· - ·) x y)
  | .mul => .ok (combine (· * ·) (· * ·) x y)
  | .div => divide (· / ·) (· / ·) x y
  | .rem => divide (· % ·) Binary64.remainder x y
  | .bitAnd => .ok (.int (x.asInt &&& y.asInt))
  | .bitOr => .ok (.int (x.asInt ||| y.asInt))
  | .bitXor => .ok (.int (x.asInt ^^^ y.asInt))
  | .lt => .ok (.ofBool (x.compare? y == some .lt))
  | .gt => .ok (.ofBool (x.compare? y == some .gt))
  | .le => .ok (.ofBool (x.compare? y == some .lt || x.compare? y == some .eq))
  | .ge => .ok (.ofBool (x.compare? y == some .gt || x.compare? y == some .eq))
  | .eq => .ok (.ofBool (x.compare? y == some .eq))
  | .ne => .ok (.ofBool (x.compare? y != some .eq))

end Operator

/-- Apply the operator with the given sign. -/
def applySymbol (symbol : Text.Bytes) (x y : Value) : Except Cause Value :=
  match Operator.ofSymbol? symbol with
  | some op => op.apply x y
  | none => .error (.unsupportedOperator symbol)

end MiniC
