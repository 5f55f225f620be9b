import MiniC.Text.Piece

/-!
# Columns

Reports align their columns by filling a text with spaces on the right. Widths
count pieces, so that a stray byte is as wide as a character, and a text that is
too long is left as it is.
-/

namespace MiniC.Text

/-- The byte of a space. -/
def space : UInt8 := 0x20

/-- Fill a text with spaces on the right up to the given width. -/
def column (width : Nat) (bs : Bytes) : Bytes :=
  bs ++ List.replicate (width - (pieces bs).length) space

/-- Every space is a piece of its own. -/
theorem length_pieces_spaces (n : Nat) : (pieces (List.replicate n space)).length = n := by
  induction n with
  | zero => rfl
  | succ n ih =>
    rw [List.replicate_succ, pieces_one _ (by decide : one? space = some ' '), List.length_cons, ih]

/-- A column is as wide as asked for, or as wide as its text. -/
theorem length_pieces_column (width : Nat) (bs : Bytes) :
    (pieces (column width bs)).length = max width (pieces bs).length := by
  unfold column
  cases h : width - (pieces bs).length with
  | zero =>
    rw [List.replicate_zero, List.append_nil]
    omega
  | succ n =>
    rw [List.replicate_succ, pieces_append_of_not_tail (by decide), List.length_append,
      ← List.replicate_succ, length_pieces_spaces]
    omega

end MiniC.Text
