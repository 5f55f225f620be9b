import MiniC.Text.Piece

/-!
# Paths

A path is a list of names between slashes, absolute if it starts with a slash.
Cleaning it drops empty names and single dots and resolves double dots against
the name before them; at the root a double dot stays at the root. A path and each
of its names have a greatest length with which they can be looked up.
-/

namespace MiniC.Path

open Text

/-- The byte between the names of a path. -/
def slash : UInt8 := 0x2F

/-- The name of the directory itself. -/
def dot : Bytes := [0x2E]

/-- The name of the directory above. -/
def dots : Bytes := [0x2E, 0x2E]

/-- The names between the slashes, empty ones included. -/
def segments : Bytes → List Bytes
  | [] => [[]]
  | b :: rest =>
    if b = slash then [] :: segments rest
    else
      match segments rest with
      | [] => [[b]]
      | name :: names => (b :: name) :: names

/-- Whether a path starts at the root. -/
def isAbsolute (path : Bytes) : Bool := path.head? == some slash

/-- Follow one name from a place that is reached by the names so far, the latest first. -/
def follow (absolute : Bool) (place : List Bytes) (name : Bytes) : List Bytes :=
  if name = [] ∨ name = dot then place
  else if name = dots then
    match place with
    | [] => if absolute then [] else [dots]
    | last :: above => if last = dots then dots :: place else above
  else name :: place

/-- The names of a cleaned path. -/
def names (path : Bytes) : List Bytes :=
  ((segments path).foldl (follow (isAbsolute path)) []).reverse

/-- Names joined by slashes. -/
def join (names : List Bytes) : Bytes := [slash].intercalate names

/-- The shortest path to the same place. -/
def clean (path : Bytes) : Bytes :=
  if isAbsolute path then slash :: join (names path)
  else if names path = [] then dot
  else join (names path)

/-- A path as seen from the root, given the current directory. -/
def absolute (current path : Bytes) : Bytes :=
  if isAbsolute path then clean path else clean (current ++ slash :: path)

/-- The directory that a cleaned path lies in. -/
def parent (path : Bytes) : Bytes :=
  clean ((path.reverse.dropWhile (· != slash)).reverse)

/-- The greatest length of a path that can be looked up. -/
def limit : Nat := 4095

/-- The greatest length of a name in a path that can be looked up. -/
def nameLimit : Nat := 255

/-- Whether a name can be looked up. -/
def isShort (name : Bytes) : Bool := name.length ≤ nameLimit

/-- The directory in which a cleaned path has its first name above the limit, if any name is. -/
def overlongIn? (path : Bytes) : Option Bytes :=
  if (names path).all isShort then none
  else
    let above := join ((names path).takeWhile isShort)
    some (if isAbsolute path then slash :: above else above)

/-- There is such a directory unless all names are within the limit. -/
theorem overlongIn?_eq_none_iff (path : Bytes) :
    overlongIn? path = none ↔ ∀ name ∈ names path, name.length ≤ nameLimit := by
  simp [overlongIn?, isShort]

end MiniC.Path
