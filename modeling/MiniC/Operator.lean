import MiniC.Text.Piece

/-!
# Binary operators

The language has fourteen binary operators in four ranks. The lower the rank,
the tighter an operator binds; operators of one rank group to the left. The
bitwise operators bind tightest and the comparisons loosest.
-/

namespace MiniC

/-- The binary operators. -/
inductive Operator where
  | lt | gt | le | ge | eq | ne
  | add | sub
  | mul | div | rem
  | bitAnd | bitOr | bitXor
  deriving DecidableEq, Repr

namespace Operator

/-- The sign of an operator. -/
def symbol : Operator → String
  | .lt => "<"
  | .gt => ">"
  | .le => "<="
  | .ge => ">="
  | .eq => "=="
  | .ne => "!="
  | .add => "+"
  | .sub => "-"
  | .mul => "*"
  | .div => "/"
  | .rem => "%"
  | .bitAnd => "&"
  | .bitOr => "|"
  | .bitXor => "^"

/-- All operators. -/
def all : List Operator :=
  [.lt, .gt, .le, .ge, .eq, .ne, .add, .sub, .mul, .div, .rem, .bitAnd, .bitOr, .bitXor]

/-- The operator with a given sign. -/
def ofSymbol? (s : Text.Bytes) : Option Operator :=
  all.find? fun op => op.symbol == s

/-- How loosely an operator binds. -/
def rank : Operator → Nat
  | .bitAnd | .bitOr | .bitXor => 0
  | .mul | .div | .rem => 1
  | .add | .sub => 2
  | .lt | .gt | .le | .ge | .eq | .ne => 3

/-- The number of ranks. -/
def ranks : Nat := 4

/-- Every operator has one of the four ranks. -/
theorem rank_lt_ranks (op : Operator) : op.rank < ranks := by cases op <;> decide

/-- An operator is found by its sign. -/
theorem ofSymbol?_symbol (op : Operator) : ofSymbol? op.symbol = some op := by
  cases op <;> decide

/-- Only its own sign finds an operator. -/
theorem symbol_of_ofSymbol? {s : Text.Bytes} {op : Operator} (h : ofSymbol? s = some op) :
    op.symbol = s := by
  simpa using List.find?_some h

end Operator

end MiniC
