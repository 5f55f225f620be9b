import MiniC.Run.State

/-!
# Evaluation

Expressions are evaluated from left to right, operands before their operator.
Only functions named `main` that have a body are run, one after the other on
the same variables; a return stores its value and the run goes on. A call does
nothing unless it prints: `printf` with a format and a variable prints that
variable, and neither it nor any other call evaluates its arguments.
-/

namespace MiniC

open Text

/-- Whether a text mentions another. -/
def mentions (part : Bytes) : Bytes → Bool
  | [] => part.isEmpty
  | b :: rest => part.isPrefixOf (b :: rest) || mentions part rest

/-- A value as a format prints it: `%d` narrows it, and otherwise `%f` or `%lf` make it
floating. -/
def formatted (format : Bytes) (v : Value) : Value :=
  if mentions "%d" format then v.narrow
  else if mentions "%f" format || mentions "%lf" format then v.toFloat
  else v

/-- The value that a call prints for a variable, given its first argument. -/
def printedValue : Expr → Value → Value
  | .const (.string format), v => formatted format v
  | _, v => v

/-- The function whose calls print. -/
def printingFunction : Bytes := "printf"

/-- The function that is run. -/
def mainFunction : Bytes := "main"

/-- What a call does to the state of a run. -/
def State.call (s : State) (name : Bytes) : List Expr → State
  | format :: arg :: _ =>
    if name = printingFunction then
      match arg with
      | .var x => s.print (printedValue format (s.store.lookup x))
      | _ => s.warn (.notPrintable arg)
    else s
  | _ => s

/-- Evaluate an expression. -/
def Expr.eval : Expr → Run Value
  | .hole => Run.warn .noRule
  | .const (.number v) => pure v
  | .const c => Run.warn (.notNumeric c)
  | .var name => do
    let s ← get
    pure (s.store.lookup name)
  | .binary op left right => do
    let x ← left.eval
    let y ← right.eval
    match applySymbol op x y with
    | .ok v => pure v
    | .error cause =>
      throw { path := [], operation := .binary op left right, cause }
  | .assign _ (.var name) value => do
    let v ← Run.within (.assignment name) value.eval
    Run.onStore fun store => store.assign name v
  | .assign _ target _ => Run.warn (.notAssignable target)
  | .call name args => do
    modify (·.call name args)
    pure .zero

mutual

/-- Run a node. -/
def Node.exec : Node → Run Unit
  | .program decls => Node.execAll decls
  | .prototype _ _ _ => pure ()
  | .function _ name _ items =>
    if name = mainFunction then Run.within (.function name) (Node.execAll items) else pure ()
  | .block items => Node.execAll items
  | .decl type name .hole => do
    let _ ← Run.onStore fun store => store.declareZero name type
    pure ()
  | .decl type name init => do
    let v ← Run.within (.declaration name) init.eval
    let _ ← Run.onStore fun store => store.declare name type v
    pure ()
  | .ret .hole => modify (·.leave .zero)
  | .ret value => do
    let v ← value.eval
    modify (·.leave v)
  | .expr e => do
    let _ ← e.eval
    pure ()

/-- Run nodes in order. -/
def Node.execAll : List Node → Run Unit
  | [] => pure ()
  | n :: rest => do
    n.exec
    Node.execAll rest

end

/-- How a run ends: with the state it reached, and the failure that stopped it if any. -/
structure Outcome where
  /-- The state that was reached. -/
  state : State
  /-- The failure, if the run did not come to its end. -/
  failure : Option Failure

/-- Run a tree from a fresh state. -/
def Node.run (n : Node) : Outcome :=
  match n.exec .initial with
  | .ok _ state => { state, failure := none }
  | .error failure state => { state, failure := some failure }

/-- Run a program from a fresh state. -/
def Program.run (p : Program) : Outcome := p.node.run

end MiniC
