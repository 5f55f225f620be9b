import MiniC.Files.Path

/-!
# File trees

A file tree is what a file system holds at one moment: the contents of its files
by their paths. Every directory above a file is there as well. Reading a path
gives the content of the file at it, or the reason why there is none.
-/

namespace MiniC

/-- Why a file cannot be read. -/
inductive FileFault where
  /-- There is nothing at the path. -/
  | notFound
  /-- The path leads through a file. -/
  | notDirectory
  /-- The path leads to a directory. -/
  | isDirectory
  /-- The path holds a null byte. -/
  | invalid
  /-- The path, or a name in a directory that is there, is above its limit. -/
  | tooLong
  /-- The file may not be read. -/
  | denied
  deriving DecidableEq, Repr

namespace FileFault

/-- What is reported about a fault. -/
def message : FileFault → String
  | .notFound => "no such file or directory"
  | .notDirectory => "not a directory"
  | .isDirectory => "is a directory"
  | .invalid => "invalid argument"
  | .tooLong => "file name too long"
  | .denied => "permission denied"

/-- The step at which a fault shows: a directory can be opened but not read. -/
def step : FileFault → String
  | .isDirectory => "read"
  | _ => "open"

end FileFault

/-- The files of a file system, with the directory that relative paths start from. -/
structure FileTree where
  /-- The current directory. -/
  current : Text.Bytes
  /-- The contents of the files, by their cleaned absolute paths. -/
  files : List (Text.Bytes × Text.Bytes)
  deriving DecidableEq, Repr

namespace FileTree

/-- A file tree with files named from the current directory. -/
def ofFiles (current : Text.Bytes) (files : List (Text.Bytes × Text.Bytes)) : FileTree :=
  { current, files := files.map fun (name, content) => (Path.absolute current name, content) }

/-- Whether a path leads to a place above that of another. -/
def isAbove (upper lower : Text.Bytes) : Bool :=
  let above := Path.names upper
  let below := Path.names lower
  above.isPrefixOf below && above.length < below.length

/-- Whether there is a directory at a path. -/
def hasDirectory (t : FileTree) (path : Text.Bytes) : Bool :=
  path == [Path.slash] || path == t.current || isAbove path t.current ||
    t.files.any fun (file, _) => isAbove path file

/-- Whether a path is above its limit, or a name of it that is looked up in a directory. -/
def isTooLong (t : FileTree) (path : Text.Bytes) : Bool :=
  Path.limit < path.length || (Path.overlongIn? path).any t.hasDirectory

/-- Read the file at a cleaned absolute path. -/
def read (t : FileTree) (path : Text.Bytes) : Except FileFault Text.Bytes :=
  if path.contains 0 then .error .invalid
  else if t.isTooLong path then .error .tooLong
  else
    match t.files.find? (·.1 == path) with
    | some (_, content) => .ok content
    | none =>
      if t.hasDirectory path then .error .isDirectory
      else if t.files.any (fun (file, _) => isAbove file path) then .error .notDirectory
      else .error .notFound

end FileTree

end MiniC
