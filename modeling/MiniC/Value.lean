import MiniC.Number.Binary64
import MiniC.Number.FloatText
import MiniC.Text.Piece

/-!
# Values

A value is a 64-bit integer or a floating number. A whole floating number can be
narrowed to the integer it equals, and an integer widened to the nearest
floating number; the declared type of a variable decides which of the two
happens to what is stored in it.
-/

namespace MiniC

/-- A number that a program computes with. -/
inductive Value where
  /-- A 64-bit integer in two's complement. -/
  | int (i : Int64)
  /-- A floating number of 64 bits. -/
  | float (f : Float)
  deriving DecidableEq

namespace Value

/-- Every variable holds integer zero until it is written. -/
def zero : Value := .int 0

instance : Inhabited Value := ⟨zero⟩

/-- The name of a value's kind. -/
def kindName : Value → String
  | .int _ => "int"
  | .float _ => "float"

/-- The floating number nearest to a value; of two equally near ones the even one. -/
def asFloat : Value → Float
  | .int i => Float.ofInt i.toInt
  | .float f => f

/-- Whether an integer fits in 64 bits. -/
def fits (i : Int) : Bool := -0x8000000000000000 ≤ i && i < 0x8000000000000000

/-- A value truncated toward zero. What does not fit becomes the least integer. -/
def asInt : Value → Int64
  | .int i => i
  | .float f =>
    match (Binary64.read f).truncated? with
    | some i => if fits i then Int64.ofInt i else Int64.minValue
    | none => Int64.minValue

/-- A value as a floating one. -/
def toFloat (v : Value) : Value := .float v.asFloat

/-- The 64-bit integer that a floating number equals exactly, if there is one. -/
def exactInt? (f : Float) : Option Int64 :=
  match (Binary64.read f).whole? with
  | some i => if fits i then some (Int64.ofInt i) else none
  | none => none

/-- Turn a floating number that equals a 64-bit integer into that integer, and leave every
other value alone. -/
def narrow : Value → Value
  | .int i => .int i
  | .float f =>
    match exactInt? f with
    | some i => .int i
    | none => .float f

/-- Whether variables of a declared type hold floating numbers. -/
def isFloating (type : Text.Bytes) : Bool := type == "float" || type == "double"

/-- A value as it is stored in a variable of the given type: floating types make it
floating, and every other type narrows it. -/
def coerce (v : Value) (type : Text.Bytes) : Value :=
  if isFloating type then v.toFloat else v.narrow

/-- A value as text: integers in decimal, floating numbers so that they read as floating. -/
def text : Value → String
  | .int i => toString i.toInt
  | .float f => floatText f

/-- Narrowing twice is narrowing once. -/
theorem narrow_narrow (v : Value) : v.narrow.narrow = v.narrow := by
  cases v with
  | int i => rfl
  | float f => cases h : exactInt? f <;> simp [narrow, h]

end Value

end MiniC
