import MiniC.Text.CodeRange
import MiniC.Text.Piece

/-!
# Blank characters and lines

Blank characters separate tokens and are trimmed from quoted source lines: the
control characters from tab to carriage return, the spaces of every width and
the line and paragraph separators. Only the line feed ends a line.
-/

namespace MiniC.Text

/-- The code points of blank characters. -/
def blankRanges : CodeRanges := [
  (0x9, 0xD), (0x20, 0x20), (0x85, 0x85), (0xA0, 0xA0), (0x1680, 0x1680), (0x2000, 0x200A),
  (0x2028, 0x2029), (0x202F, 0x202F), (0x205F, 0x205F), (0x3000, 0x3000)]

/-- Whether a character is blank. -/
def isBlank (c : Char) : Bool := blankRanges.contains c.toNat

/-- The table is in order. -/
theorem ascending_blankRanges : blankRanges.ascending = true := by decide

/-- Whether a piece is a blank character; a stray byte never is. -/
def Piece.isBlank (p : Piece) : Bool := Text.isBlank p.seen

/-- The lines of a text: what stands between its line feeds, at least one line. -/
def lines : List Piece → List (List Piece)
  | [] => [[]]
  | p :: ps =>
    if p.seen = '\n' then [] :: lines ps
    else
      match lines ps with
      | [] => [[p]]
      | l :: ls => (p :: l) :: ls

/-- A text has at least one line. -/
theorem lines_ne_nil (ps : List Piece) : lines ps ≠ [] := by
  cases ps with
  | nil => exact List.cons_ne_nil _ _
  | cons p rest =>
    unfold lines
    split
    · exact List.cons_ne_nil _ _
    · split <;> exact List.cons_ne_nil _ _

/-- A line feed parts the lines before it from those after it. -/
theorem lines_append_newline {p : Piece} (hp : p.seen = '\n') (before after : List Piece) :
    lines (before ++ p :: after) = lines before ++ lines after := by
  induction before with
  | nil => simp [lines, hp]
  | cons q rest ih =>
    rw [List.cons_append, lines, ih, lines]
    split
    · rfl
    · cases h : lines rest with
      | nil => exact absurd h (lines_ne_nil rest)
      | cons l ls => rfl

/-- Drop the blanks at both ends. -/
def trim (ps : List Piece) : List Piece :=
  ((ps.dropWhile Piece.isBlank).reverse.dropWhile Piece.isBlank).reverse

/-- The raw bytes of a line, trimmed of blanks; lines count from one, and a line that the
text does not have is empty. -/
def snippet (source : Bytes) (line : Int) : Bytes :=
  if 1 ≤ line then
    match (lines (pieces source))[(line - 1).toNat]? with
    | some l => (trim l).flatMap Piece.bytes
    | none => []
  else []

end MiniC.Text
