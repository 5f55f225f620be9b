import MiniC.Command.Console
import MiniC.Command.Options

/-!
# The evaluating command

The command reads one source, compiles and runs it, and shows the printed
values. Options add the token list, leave out the outline of the tree, and
silence the warnings. It ends with code 0 on success, 1 if the source is missing,
unreadable or stops with an error, and 2 if the options are wrong.
-/

namespace MiniC.Command.Evaluate

open Text

/-- The name that stands before the remarks of the command. -/
def heading : Bytes := "ceval: "

/-- How to call the command, one write for each entry. -/
def usage : List Bytes := [
  "Usage: ceval [-tokens] [-ast=false] [-q] <c_file_path>\n",
  "  -ast\n    \tprint the AST dump (default true)\n",
  "  -q\tsuppress lexer and evaluator warnings\n",
  "  -tokens\n    \tprint the token stream before the AST\n"]

/-- What the arguments ask for. -/
inductive Request where
  /-- Explain a fault of the options and how to call the command. -/
  | explain (fault : OptionFault)
  /-- Show how to call the command, since there is no path. -/
  | showUsage
  /-- Evaluate the source at a path. -/
  | evaluate (options : Options) (path : Bytes)
  deriving DecidableEq, Repr

/-- What a list of arguments asks for. -/
def request (args : List Bytes) : Request :=
  match ({} : Options).read args with
  | .error fault => .explain fault
  | .ok (_, []) => .showUsage
  | .ok (options, path :: _) => .evaluate options path

/-- Explain a fault of the options. -/
def explain (fault : OptionFault) : Session Nat := do
  match fault.message? with
  | some message =>
    let _ ← output (message ++ "\n")
  | none => pure ()
  outputTexts usage
  pure 2

/-- Show how to call the command. -/
def showUsage : Session Nat := do
  outputTexts usage
  pure 1

/-- Stop with an error. -/
def stop (s : Stop) : Session Nat := do
  showStop s
  pure 1

/-- Log warnings unless they are to be kept quiet. -/
def log (options : Options) (ds : List Diagnostic) : Session Unit :=
  if options.quiet then pure () else logDiagnostics heading ds

/-- The line of a token in the token list. -/
def tokenLine (t : Token) : Bytes := t.text ++ "\n"

/-- The line of a printed value. -/
def resultLine (v : Value) : Bytes := "Computation Result: " ++ v.text ++ "\n"

/-- Run a program and show what it printed. -/
def runProgram (options : Options) (p : Program) : Session Nat := do
  let outcome := p.run
  log options (outcome.state.warnings.map Warning.diagnostic)
  match outcome.failure with
  | some failure => stop (.failed failure)
  | none =>
    outputTexts (outcome.state.prints.map resultLine)
    pure 0

/-- Evaluate a source. -/
def evaluateSource (options : Options) (source : Bytes) : Session Nat := do
  let lexed := lex source
  log options lexed.diagnostics
  match parse lexed.tokens source with
  | .error e => stop (.notProgram e)
  | .ok p =>
    if options.tokens then outputTexts (lexed.tokens.map tokenLine)
    if options.ast then
      let accepted ← outputDump p.node
      if accepted then runProgram options p else stop .refused
    else runProgram options p

/-- Answer a request, given how reading a path turns out; the current directory completes
relative paths. -/
def answer (current : Bytes) (read : Bytes → Except FileFault Bytes) : Request → Session Nat
  | .explain fault => explain fault
  | .showUsage => showUsage
  | .evaluate options path =>
    let full := Path.absolute current path
    match read full with
    | .error fault => stop (.unreadable full fault)
    | .ok source => evaluateSource options source

/-- Call the command on the files of a tree, with output that may be limited. -/
def run (args : List Bytes) (files : FileTree) (limit : Option Nat) : Report :=
  (answer files.current files.read (request args)).report limit

end MiniC.Command.Evaluate
