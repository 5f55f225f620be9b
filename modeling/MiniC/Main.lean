import MiniC.Command.Evaluate
import MiniC.Command.Inspect

/-!
# Command line

The commands as programs: arguments, files and channels come from the operating
system, and everything else is decided by the commands themselves.
-/

namespace MiniC.Shell

open Text

/-- The fault behind an error of the operating system. -/
def faultOf : IO.Error → FileFault
  | .noFileOrDirectory .. => .notFound
  | .inappropriateType _ code _ => if code = 21 then .isDirectory else .notDirectory
  | .invalidArgument _ code _ => if code = 36 then .tooLong else .invalid
  | .permissionDenied .. => .denied
  | _ => .notFound

/-- Read a file. -/
def readFile (path : Bytes) : IO (Except FileFault Bytes) := do
  if path.contains 0 then return .error .invalid
  try
    let content ← IO.FS.readBinFile (String.ofList (chars path))
    return .ok content.toList
  catch e => return .error (faultOf e)

/-- Write what a command leaves behind and end with its exit code. -/
def finish (r : Command.Report) : IO UInt32 := do
  (← IO.getStdout).write (ByteArray.mk r.stdout.toArray)
  (← IO.getStderr).write (ByteArray.mk r.stderr.toArray)
  return r.code.toUInt32

/-- The current directory. -/
def current : IO Bytes := do
  return encode (← IO.currentDir).toString

/-- Evaluate a source. -/
def evaluate (args : List String) : IO UInt32 := do
  let request := Command.Evaluate.request (args.map encode)
  let current ← current
  let source ←
    match request with
    | .evaluate _ path => readFile (Path.absolute current path)
    | _ => pure (.error .notFound)
  finish ((Command.Evaluate.answer current (fun _ => source) request).report none)

/-- Inspect a source. -/
def inspect (args : List String) : IO UInt32 := do
  let current ← current
  let source ←
    match args with
    | path :: _ => readFile (Path.absolute current (encode path))
    | [] => pure (.error .notFound)
  finish ((Command.Inspect.answer current (fun _ => source) (args.map encode)).report none)

end MiniC.Shell

/-- Evaluate the source that the arguments name. -/
def main (args : List String) : IO UInt32 := MiniC.Shell.evaluate args
