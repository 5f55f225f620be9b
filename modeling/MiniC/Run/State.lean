import MiniC.Diagnostic
import MiniC.Run.Arithmetic
import MiniC.Store
import MiniC.Tree

/-!
# States and failures of a run

The state of a run holds its variables, the values it has printed, the value of
the first return, and the warnings it has raised. A run that fails keeps the
state it had reached; its failure names the operation that has no value, why it
has none, and the way to it from the outermost node inward.
-/

namespace MiniC

open Text

/-- Something that is passed over during a run. -/
inductive Warning where
  /-- A constant that is no number was evaluated. -/
  | notNumeric (c : Constant)
  /-- Something that is no variable was assigned to. -/
  | notAssignable (target : Expr)
  /-- Something that is no variable was to be printed. -/
  | notPrintable (arg : Expr)
  /-- A left-out expression was evaluated. -/
  | noRule

/-- What is reported about a warning. -/
def Warning.message : Warning → Bytes
  | .notNumeric c => "string constant " ++ c.text ++ " has no numeric value, using 0"
  | .notAssignable target => "cannot assign to " ++ target.text ++ ", using 0"
  | .notPrintable arg => "printf value " ++ arg.text ++ " is not a plain variable, ignored"
  | .noRule => "no evaluation rule for <nil>, using 0"

/-- A warning as a diagnostic; runs know no lines. -/
def Warning.diagnostic (w : Warning) : Diagnostic := .warning 0 w.message

/-- A node on the way to a failure that its report names. -/
inductive Context where
  /-- The function that is run. -/
  | function (name : Bytes)
  /-- The declaration of a variable. -/
  | declaration (name : Bytes)
  /-- An assignment to a variable. -/
  | assignment (name : Bytes)
  deriving DecidableEq, Repr

/-- How a report names a node on the way. -/
def Context.text : Context → Bytes
  | .function name => "in " ++ name
  | .declaration name => "declaration of " ++ name
  | .assignment name => "assignment to " ++ name

/-- Why a run failed and where. -/
structure Failure where
  /-- The way to the failing operation, outermost first. -/
  path : List Context
  /-- The operation that has no value. -/
  operation : Expr
  /-- Why it has none. -/
  cause : Cause

namespace Failure

/-- A failure seen from one node further out. -/
def within (f : Failure) (c : Context) : Failure := { f with path := c :: f.path }

/-- The parts of a report, outermost first, without the cause. -/
def parts (f : Failure) : List Bytes := f.path.map Context.text ++ [f.operation.text]

/-- What stands between the parts of a report. -/
def colon : Bytes := ": "

/-- The reports as seen from each part inward, and last the cause alone. -/
def reports (cause : Bytes) : List Bytes → List Bytes
  | [] => [cause]
  | part :: rest => colon.intercalate (part :: rest ++ [cause]) :: reports cause rest

/-- The reports of a failure, outermost first. -/
def chain (f : Failure) : List Bytes := reports f.cause.message f.parts

/-- The report of a failure. -/
def message (f : Failure) : Bytes := colon.intercalate (f.parts ++ [f.cause.message])

end Failure

/-- The state of a run. -/
structure State where
  /-- The variables. -/
  store : Store
  /-- The printed values, in order. -/
  prints : List Value
  /-- The value of the first return, if there was one. -/
  exit : Option Value
  /-- The warnings, in order. -/
  warnings : List Warning

namespace State

/-- The state in which every run starts. -/
def initial : State := { store := .empty, prints := [], exit := none, warnings := [] }

/-- Raise a warning. -/
def warn (s : State) (w : Warning) : State := { s with warnings := s.warnings ++ [w] }

/-- Print a value. -/
def print (s : State) (v : Value) : State := { s with prints := s.prints ++ [v] }

/-- Return a value; only the first return of a run counts. -/
def leave (s : State) (v : Value) : State := { s with exit := s.exit.or (some v) }

end State

/-- A computation on the state of a run, which may fail. -/
abbrev Run := EStateM Failure State

namespace Run

/-- Raise a warning and go on with integer zero. -/
def warn (w : Warning) : Run Value := do
  modify (·.warn w)
  pure .zero

/-- Change the variables by an operation of the store. -/
def onStore {α : Type} (f : Store → α × Store) : Run α :=
  modifyGet fun s => ((f s.store).1, { s with store := (f s.store).2 })

/-- Note a node on the way of whatever fails inside it. -/
def within {α : Type} (c : Context) (x : Run α) : Run α := fun s =>
  match x s with
  | .ok a s' => .ok a s'
  | .error f s' => .error (f.within c) s'

end Run

end MiniC
