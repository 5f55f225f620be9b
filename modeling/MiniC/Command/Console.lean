import MiniC.Compile
import MiniC.Files.Tree
import MiniC.Run.Eval
import MiniC.Tree.Dump

/-!
# Consoles and error traces

A command writes to a console: output goes to a sink that may refuse writes, and
remarks go to a second channel that never does. An error is shown by its one-line
message on the output and, on the second channel, by its trace: the links from
the outermost message to the cause, each with the name of its type.
-/

namespace MiniC.Command

open Text

/-- The two channels of a command. -/
structure Console where
  /-- Where output goes. -/
  out : Sink
  /-- The remarks, the latest first. -/
  err : List Bytes
  deriving DecidableEq, Repr

/-- A computation that writes to a console. -/
abbrev Session := StateM Console

/-- Write to the output; the answer is whether the write was accepted. -/
def output (w : Bytes) : Session Bool :=
  modifyGet fun c => ((c.out.write w).1, { c with out := (c.out.write w).2 })

/-- Write a text to the output, accepted or not. -/
def outputText (w : Bytes) : Session Unit := do
  let _ ← output w

/-- Write texts to the output, one write each. -/
def outputTexts : List Bytes → Session Unit
  | [] => pure ()
  | w :: rest => do
    outputText w
    outputTexts rest

/-- Dump a tree to the output; the answer is whether all of it was accepted. -/
def outputDump (n : Node) : Session Bool :=
  modifyGet fun c => ((n.dump c.out).1, { c with out := (n.dump c.out).2 })

/-- Write a remark. -/
def remark (w : Bytes) : Session Unit :=
  modify fun c => { c with err := w :: c.err }

/-- Write a diagnostic as a remark behind a heading. -/
def logDiagnostic (heading : Bytes) (d : Diagnostic) : Session Unit :=
  remark (d.logLine heading)

/-- Write diagnostics as remarks, one each. -/
def logDiagnostics (heading : Bytes) : List Diagnostic → Session Unit
  | [] => pure ()
  | d :: rest => do
    logDiagnostic heading d
    logDiagnostics heading rest

/-- What a command leaves behind. -/
structure Report where
  /-- The exit code. -/
  code : Nat
  /-- The accepted output. -/
  stdout : Bytes
  /-- The remarks. -/
  stderr : Bytes
  deriving DecidableEq, Repr

/-- Run a command on a console whose output has the given limit. -/
def Session.report (session : Session Nat) (limit : Option Nat) : Report :=
  let (code, console) := session.run { out := .ofLimit limit, err := [] }
  { code, stdout := console.out.bytes, stderr := console.err.reverse.flatten }

/-- The types of the links of a trace. -/
inductive LinkKind where
  /-- A message around a further link. -/
  | wrapper
  /-- A syntax error. -/
  | syntaxError
  /-- A bare message. -/
  | plain
  /-- A failed step on a path. -/
  | path
  /-- A code of the operating system. -/
  | system
  deriving DecidableEq, Repr

/-- The type name that a trace shows. -/
def LinkKind.name : LinkKind → String
  | .wrapper => "*fmt.wrapError"
  | .syntaxError => "*compiler.SyntaxError"
  | .plain => "*errors.errorString"
  | .path => "*fs.PathError"
  | .system => "syscall.Errno"

/-- One link of a trace. -/
structure Link where
  /-- Its type. -/
  kind : LinkKind
  /-- Its message, which includes the messages of the links below. -/
  message : Bytes
  deriving DecidableEq, Repr

/-- What can stop a command. -/
inductive Stop where
  /-- The source at a path could not be read. -/
  | unreadable (path : Bytes) (fault : FileFault)
  /-- The source is no program. -/
  | notProgram (e : SyntaxError)
  /-- The run failed. -/
  | failed (f : Failure)
  /-- The output refused the dump. -/
  | refused

namespace Stop

/-- The links of a list of messages that wrap each other, down to a bare one. -/
def wrappers : List Bytes → List Link
  | [] => []
  | [cause] => [⟨.plain, cause⟩]
  | message :: rest => ⟨.wrapper, message⟩ :: wrappers rest

/-- The trace of an error, from the outermost message to the cause. -/
def trace : Stop → List Link
  | .unreadable path fault =>
    let step : Bytes := fault.step ++ " " ++ path ++ ": " ++ fault.message
    [⟨.wrapper, "read source: " ++ step⟩, ⟨.path, step⟩, ⟨.system, fault.message⟩]
  | .notProgram e =>
    [⟨.wrapper, e.compileMessage⟩, ⟨.syntaxError, e.message⟩, ⟨.plain, SyntaxError.cause⟩]
  | .failed f => ⟨.wrapper, "evaluate: " ++ f.message⟩ :: wrappers f.chain
  | .refused => [⟨.plain, writeFailed⟩]

/-- The one-line message of an error. -/
def message (s : Stop) : Bytes := (s.trace.head?.map Link.message).getD []

/-- The source line that a syntax error quotes. -/
def quotation? : Stop → Option Bytes
  | .notProgram e =>
    if e.snippet = [] then none
    else some ("  line " ++ toString e.line ++ " |> " ++ e.snippet ++ "\n")
  | _ => none

end Stop

/-- The line of a link in a trace. -/
def Link.line (l : Link) : Bytes := "  " ++ l.kind.name ++ ": " ++ l.message ++ "\n"

/-- Write the links of a trace as remarks. -/
def remarkLinks : List Link → Session Unit
  | [] => pure ()
  | l :: rest => do
    remark l.line
    remarkLinks rest

/-- Show an error on both channels. -/
def showStop (s : Stop) : Session Unit := do
  let _ ← output ("Error: " ++ s.message ++ "\n")
  remark "Trace (most recent wrap first):\n"
  remarkLinks s.trace
  match s.quotation? with
  | some line => remark line
  | none => pure ()

end MiniC.Command
