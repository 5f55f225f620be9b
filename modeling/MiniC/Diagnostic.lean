import MiniC.Text.Piece

/-!
# Diagnostics

A diagnostic is a remark that stops nothing. It carries the line it is about,
or a line of at most zero when there is none to name.
-/

namespace MiniC

/-- A remark on a source or on a run of it. -/
structure Diagnostic where
  /-- How serious the remark is. -/
  level : Text.Bytes
  /-- The source line, counted from one; zero or less when no line is known. -/
  line : Int
  /-- What the remark says. -/
  message : Text.Bytes
  deriving DecidableEq, Repr

namespace Diagnostic

/-- A warning about a line. -/
def warning (line : Int) (message : Text.Bytes) : Diagnostic :=
  { level := "warning", line, message }

/-- A diagnostic as one line of text. -/
def text (d : Diagnostic) : Text.Bytes :=
  if 0 < d.line then d.level ++ ": line " ++ toString d.line ++ ": " ++ d.message
  else d.level ++ ": " ++ d.message

/-- The line of a log about a diagnostic, behind a heading. -/
def logLine (heading : Text.Bytes) (d : Diagnostic) : Text.Bytes := heading ++ d.text ++ "\n"

end Diagnostic

end MiniC
