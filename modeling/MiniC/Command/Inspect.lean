import MiniC.Command.Console

/-!
# The inspecting command

The command shows every stage of one source: its text, its tokens, its
functions, what it printed, and its variables at the end. Without an argument it
inspects a sample.
-/

namespace MiniC.Command.Inspect

open Text

/-- The source that is inspected if no other is named. -/
def sample : String := String.join [
  "#include <stdio.h>\n",
  "\n",
  "int main() \x7b\n",
  "    int a = 7;\n",
  "    int b = 2;\n",
  "    float x = a;\n",
  "    float q = x / b;\n",
  "    int c = a / b;\n",
  "    printf(\"%d\\n\", c);\n",
  "    printf(\"%f\\n\", q);\n",
  "    return 0;\n",
  "\x7d\n"]

/-- Stop with a message behind the name of a stage. -/
def stop (stage message : Bytes) : Session Nat := do
  remark (stage ++ " error: " ++ message ++ "\n")
  pure 1

/-- The line of a token. -/
def tokenLine (t : Token) : Bytes := "  " ++ t.text ++ "\n"

/-- The line of a declaration. -/
def declLine (n : Node) : Bytes := "  " ++ n.text ++ "\n"

/-- The line of a printed value. -/
def printLine (v : Value) : Bytes := "  " ++ column 5 v.kindName ++ " " ++ v.text ++ "\n"

/-- The line of the returned value, if there is one. -/
def exitLines (exit : Option Value) : List Bytes :=
  match exit with
  | some v => ["  main returned " ++ v.text ++ "\n"]
  | none => []

/-- The line of a variable. -/
def bindingLine (b : Binding) : Bytes :=
  "  " ++ column 16 b.name ++ " " ++ column 12 (b.type.getD "(undeclared)") ++ " " ++
    column 5 b.value.kindName ++ " " ++ b.value.text ++ "\n"

/-- Show a run that came to its end. -/
def showState (s : State) : Session Unit := do
  outputTexts ("Results\n" :: s.prints.map printLine)
  outputTexts (exitLines s.exit)
  outputTexts ("\n" :: "Environment\n" :: s.store.bindings.map bindingLine)

/-- Show the stages of a source. -/
def inspectSource (source : Bytes) : Session Nat := do
  let _ ← output ("Source:\n" ++ source ++ "\n")
  let lexed := lex source
  logDiagnostics [] lexed.diagnostics
  outputText ("Tokens (" ++ toString lexed.tokens.length ++ ")\n")
  outputTexts (lexed.tokens.map tokenLine)
  outputText "\n"
  match parse lexed.tokens source with
  | .error e => stop "parse" e.message
  | .ok p =>
    outputTexts ("AST\n" :: p.decls.map declLine)
    outputText "\n"
    let outcome := p.run
    logDiagnostics [] (outcome.state.warnings.map Warning.diagnostic)
    match outcome.failure with
    | some failure => stop "evaluation" failure.message
    | none =>
      showState outcome.state
      pure 0

/-- Inspect the source at the first argument, given how reading a path turns out, or the
sample if there is none. -/
def answer (current : Bytes) (read : Bytes → Except FileFault Bytes) :
    List Bytes → Session Nat
  | [] => inspectSource sample
  | path :: _ =>
    let full := Path.absolute current path
    match read full with
    | .error fault => stop "read" (Stop.message (.unreadable full fault))
    | .ok source => inspectSource source

/-- Call the command on the files of a tree. -/
def run (args : List Bytes) (files : FileTree) : Report :=
  (answer files.current files.read args).report none

end MiniC.Command.Inspect
