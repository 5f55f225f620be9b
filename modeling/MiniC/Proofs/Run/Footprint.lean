import MiniC.Command.Console
import MiniC.Proofs.Run.Walk

/-!
# What the syntax of a program decides

The values that a program computes with decide neither what it warns about, nor
how often it prints, nor which variables there are and of which type, nor
whether it returns: all of this is the footprint of its walk. A run that fails
leaves the footprint of the part of the walk it has finished.
-/

namespace MiniC

open Text

/-- Whether an expression is a variable. -/
def Expr.isVariable : Expr → Bool
  | .var _ => true
  | _ => false

namespace Node

/-- The warning that a node raises: left-out expressions, constants that are no numbers,
assignments to what is no variable, and printing calls whose second argument is none. -/
def warning? : Node → Option Warning
  | .expr .hole => some .noRule
  | .expr (.const (.number _)) => none
  | .expr (.const c) => some (.notNumeric c)
  | .expr (.assign _ target _) => if target.isVariable then none else some (.notAssignable target)
  | .expr (.call name (_ :: arg :: _)) =>
    if name = printingFunction && !arg.isVariable then some (.notPrintable arg) else none
  | _ => none

/-- Whether a node prints: a printing call whose second argument is a variable. -/
def prints : Node → Bool
  | .expr (.call name (_ :: arg :: _)) => name = printingFunction && arg.isVariable
  | _ => false

/-- The type that a node declares a variable with. -/
def declaredType? (x : Bytes) : Node → Option Bytes
  | .decl type name _ => if name = x then some type else none
  | _ => none

/-- Whether a node is a return. -/
def isReturn : Node → Bool
  | .ret _ => true
  | _ => false

end Node

/-- Expressions hold no returns. -/
theorem Expr.isReturn_of_mem_walk (e : Expr) : ∀ n ∈ e.walk, n.isReturn = false := by
  fun_induction Expr.walk e with
  | case1 op left right ihl ihr =>
    simp only [List.forall_mem_append, List.forall_mem_singleton]
    exact ⟨⟨ihl, ihr⟩, rfl⟩
  | case2 op name value ih =>
    simp only [List.forall_mem_append, List.forall_mem_singleton]
    exact ⟨ih, rfl⟩
  | case3 e => exact List.forall_mem_singleton.mpr rfl

theorem Node.eq_hole_of_warning? {n : Node} (h : n.warning? = some .noRule) : n = .expr .hole := by
  fun_cases Node.warning? n with
  | case1 => rfl
  | _ => simp_all [Node.warning?]

/-- The footprint of finished nodes in a state. -/
structure State.Footprint (s : State) (ns : List Node) : Prop where
  /-- The warnings are those of the nodes, in order. -/
  warnings : s.warnings = ns.filterMap Node.warning?
  /-- As many values are printed as nodes print. -/
  prints : s.prints.length = ns.countP Node.prints
  /-- The names ascend, so none stands there twice. -/
  ascending : s.store.names.Pairwise (· < ·)
  /-- The names are those that the nodes declare or assign. -/
  names : ∀ x, x ∈ s.store.names ↔ ∃ n ∈ ns, n.written? = some x
  /-- The type of a variable is that of its last declaration. -/
  types : ∀ x, s.store.typeOf? x = (ns.filterMap (Node.declaredType? x)).getLast?
  /-- There is an exit value if some node is a return. -/
  exit : s.exit.isSome ↔ ∃ n ∈ ns, n.isReturn

section Step

variable (n : Node) (v : Value) (s : State) (x : Bytes)

theorem warnings_apply : (n.effect.apply v s).warnings = s.warnings ++ n.warning?.toList := by
  fun_cases Node.effect n
  all_goals
    simp_all [Node.warning?, Expr.isVariable, Effect.apply, State.warn, State.print, State.leave]

theorem length_prints_apply :
    (n.effect.apply v s).prints.length = s.prints.length + if n.prints then 1 else 0 := by
  fun_cases Node.effect n
  all_goals
    simp_all [Node.prints, Expr.isVariable, Effect.apply, State.warn, State.print, State.leave]

theorem isSome_exit_apply :
    (n.effect.apply v s).exit.isSome = (s.exit.isSome || n.isReturn) := by
  fun_cases Node.effect n
  all_goals simp_all [Node.isReturn, Effect.apply, State.warn, State.print, State.leave]

variable {s} in
theorem pairwise_names_apply (h : s.store.names.Pairwise (· < ·)) :
    (n.effect.apply v s).store.names.Pairwise (· < ·) := by
  obtain ⟨-, hstore⟩ | ⟨_, _, -, hstore⟩ | ⟨_, _, _, -, -, hstore⟩ | ⟨_, _, _, -, hstore⟩ :=
    n.store_cases v s
  · rwa [hstore]
  all_goals
    rw [hstore]
    exact Store.pairwise_names_put _ h

theorem mem_names_apply :
    x ∈ (n.effect.apply v s).store.names ↔ x ∈ s.store.names ∨ n.written? = some x := by
  obtain ⟨hnone, hstore⟩ | ⟨_, _, rfl, hstore⟩ | ⟨_, _, _, rfl, -, hstore⟩ | ⟨_, _, _, rfl, hstore⟩ :=
    n.store_cases v s
  · simp [hstore, hnone]
  all_goals
    rw [hstore, Store.mem_names_put, or_comm]
    simp [Node.written?]

/-- A declaration gives its variable its type; no other node changes a type. -/
theorem typeOf?_apply :
    (n.effect.apply v s).store.typeOf? x = (n.declaredType? x).or (s.store.typeOf? x) := by
  obtain ⟨hnone, hstore⟩ | ⟨type, name, rfl, hstore⟩ | ⟨type, name, _, rfl, -, hstore⟩ |
    ⟨_, name, _, rfl, hstore⟩ := n.store_cases v s
  · have hdecl : n.declaredType? x = none := by
      cases n with
      | decl => cases hnone
      | _ => rfl
    rw [hstore, hdecl, Option.none_or]
  · rw [hstore, Store.typeOf?_put]
    by_cases h : name = x <;> simp [Node.declaredType?, h]
  · rw [hstore, Store.typeOf?_put]
    by_cases h : name = x <;> simp [Node.declaredType?, h]
  · rw [hstore, Store.typeOf?_put]
    by_cases h : name = x <;> simp [Node.declaredType?, h]

end Step

namespace State.Footprint

variable {s t : State} {ns : List Node}

theorem initial : State.initial.Footprint [] where
  warnings := rfl
  prints := rfl
  ascending := .nil
  names := by simp [State.initial, Store.empty, Store.names]
  types _ := rfl
  exit := by simp [State.initial]

/-- Finishing a node adds its own footprint. -/
theorem finish (h : s.Footprint ns) (n : Node) (v : Value) :
    (n.effect.apply v s).Footprint (ns ++ [n]) where
  warnings := by
    rw [warnings_apply, h.warnings, List.filterMap_append]
    cases hn : n.warning? <;> simp [hn]
  prints := by
    rw [length_prints_apply, h.prints, List.countP_append, List.countP_singleton]
  ascending := pairwise_names_apply n v h.ascending
  names x := by
    rw [mem_names_apply, h.names]
    simp [or_and_right, exists_or]
  types x := by
    rw [typeOf?_apply, h.types, List.filterMap_append]
    cases hn : n.declaredType? x <;> simp [hn]
  exit := by
    rw [isSome_exit_apply, Bool.or_eq_true, h.exit]
    simp [or_and_right, exists_or]

end State.Footprint

/-- Finished nodes leave their footprint. -/
theorem Steps.footprint {ns : List Node} {t : State} (h : Steps .initial ns t) :
    t.Footprint ns := by
  induction h with
  | nil => exact .initial
  | snoc v _ ih => exact ih.finish _ v

/-- The lines that logging the warnings of a run leaves on a console, in order. -/
def State.logged (heading : Bytes) (s : State) : List Bytes :=
  let logging := Command.logDiagnostics heading (s.warnings.map Warning.diagnostic)
  (logging.run ⟨.ofLimit none, []⟩).2.err.reverse

/-- The log lines about the warnings that nodes raise. -/
def Node.logLines (heading : Bytes) (ns : List Node) : List Bytes :=
  (ns.filterMap Node.warning?).map fun w => w.diagnostic.logLine heading

/-- Logging diagnostics remarks one line about each. -/
theorem Command.err_logDiagnostics (heading : Bytes) (ds : List Diagnostic) (c : Command.Console) :
    ((Command.logDiagnostics heading ds).run c).2.err =
      (ds.map (Diagnostic.logLine heading)).reverse ++ c.err := by
  induction ds generalizing c with
  | nil => rfl
  | cons d rest ih =>
    calc ((Command.logDiagnostics heading (d :: rest)).run c).2.err
        = ((Command.logDiagnostics heading rest).run
            { c with err := d.logLine heading :: c.err }).2.err := rfl
      _ = _ := by simp [ih]

theorem State.logged_eq (heading : Bytes) (s : State) :
    s.logged heading = s.warnings.map fun w => w.diagnostic.logLine heading := by
  simp [State.logged, Command.err_logDiagnostics, Function.comp_def]

/-- A run raises the warnings of its walk in order, if not all of them. -/
theorem Program.warnings_isPrefix (p : Program) :
    p.run.state.warnings <+: p.node.walk.filterMap Node.warning? := by
  cases hfailure : p.run.failure with
  | none =>
    have hwarnings := (Program.steps_of_success hfailure).footprint.warnings
    exact hwarnings ▸ List.prefix_refl _
  | some f =>
    obtain ⟨-, before, after, hwalk, hsteps⟩ := Program.steps_of_failure hfailure
    rw [hsteps.footprint.warnings, hwalk, List.filterMap_append]
    exact List.prefix_append _ _

/-- A run that comes to its end leaves the footprint of the walk of its program, and its log has a
line for each warning of the walk. The warnings and the log of a run that fails break off early. -/
theorem Program.footprint_run (p : Program) :
    (p.run.failure = none →
      p.run.state.Footprint p.node.walk ∧
        ∀ heading, p.run.state.logged heading = Node.logLines heading p.node.walk) ∧
      ∀ f, p.run.failure = some f →
        p.run.state.warnings <+: p.node.walk.filterMap Node.warning? ∧
          ∀ heading, p.run.state.logged heading <+: Node.logLines heading p.node.walk := by
  constructor
  · intro h
    have hfootprint := (Program.steps_of_success h).footprint
    refine ⟨hfootprint, fun heading => ?_⟩
    rw [State.logged_eq, hfootprint.warnings]
    rfl
  · intro f _
    refine ⟨p.warnings_isPrefix, fun heading => ?_⟩
    rw [State.logged_eq]
    exact p.warnings_isPrefix.map _

/-- A program that assigns a string, prints the variable and returns, and one that fails behind a
string and before a hole. -/
theorem Program.footprint_run_strings :
    let assigned : Program := ⟨[.function "int" "main" []
      [.expr (.assign "=" (.var "x") (.const (.string "s"))),
        .expr (.call "printf" [.const (.string "%f"), .var "x"]), .ret .hole]]⟩
    let divided : Program := ⟨[.function "int" "main" []
      [.expr (.binary "%" (.const (.string "s")) (.const (.number .zero))), .expr .hole]]⟩
    assigned.run.failure = none ∧ assigned.run.state.Footprint assigned.node.walk ∧
      ∃ f, divided.run.failure = some f ∧
        divided.run.state.warnings <+: divided.node.walk.filterMap Node.warning? := by
  intro assigned divided
  have hsuccess : assigned.run.failure = none := rfl
  have hfailure : divided.run.failure = some
      ⟨[.function "main"], .binary "%" (.const (.string "s")) (.const (.number .zero)),
        .divisionByZero⟩ := rfl
  exact ⟨hsuccess, ((Program.footprint_run assigned).1 hsuccess).1, _, hfailure,
    ((Program.footprint_run divided).2 _ hfailure).1⟩

end MiniC
