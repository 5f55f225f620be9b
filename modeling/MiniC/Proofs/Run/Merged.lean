import MiniC.Proofs.Run.WellBuilt

/-!
# Functions that are run as one

A run enters the functions named `main` in order and carries everything over
from one to the next: the variables, the printed values, the first return and
the warnings. So a program of functions ends as the one function does that has
the items of all of these, and a function of any other name can be left out
wherever it stands.
-/

namespace MiniC

open Text

/-- Whether a node is a function with a body. -/
def Node.hasBody : Node → Bool
  | .function _ _ _ _ => true
  | _ => false

/-- The items that a function contributes to a run: its own if it is named `main`, and none
otherwise. -/
def Node.mainItems : Node → List Node
  | .function _ name _ items => if name = mainFunction then items else []
  | _ => []

/-- The program with a single function `main`, whose items are those of all functions of this name
in order. -/
def Program.merged (p : Program) (type : Bytes) (params : List Node) : Program :=
  ⟨[.function type mainFunction params (p.decls.flatMap Node.mainItems)]⟩

namespace Run

variable {α β : Type}

/-- Noting a node around two computations is noting it around each of them. -/
theorem within_bind (c : Context) (x : Run α) (following : α → Run β) :
    within c (x >>= following) = within c x >>= fun a => within c (following a) := by
  funext s
  rw [bind_apply, within, within, bind_apply]
  cases x s with
  | ok a t => rfl
  | error f t => rfl

end Run

namespace Node

theorem execAll_append (ms ns : List Node) :
    execAll (ms ++ ns) = execAll ms >>= fun _ => execAll ns := by
  induction ms with
  | nil => exact (pure_bind () fun _ => execAll ns).symm
  | cons m rest ih =>
    rw [List.cons_append, execAll, execAll, ih, bind_assoc]

/-- A function with a body runs the items that it contributes, and a failure in them is reported
from within `main`. -/
theorem exec_eq_within {n : Node} (h : n.hasBody = true) :
    n.exec = Run.within (.function mainFunction) (execAll n.mainItems) := by
  cases n with
  | function type name params items =>
    rw [exec, mainItems]
    by_cases hname : name = mainFunction
    · rw [if_pos hname, if_pos hname, hname]
    · rw [if_neg hname, if_neg hname]
      rfl
  | _ => cases h

/-- Functions with bodies run as if what they contribute stood in one function. -/
theorem execAll_eq_within {ns : List Node} (h : ∀ n ∈ ns, n.hasBody = true) :
    execAll ns = Run.within (.function mainFunction) (execAll (ns.flatMap mainItems)) := by
  induction ns with
  | nil => rfl
  | cons n rest ih =>
    obtain ⟨hn, hrest⟩ := List.forall_mem_cons.mp h
    rw [execAll, exec_eq_within hn, ih hrest, List.flatMap_cons, execAll_append, Run.within_bind]

/-- What does nothing can be left out, wherever it stands. -/
theorem execAll_skip {n : Node} (h : n.exec = pure ()) (before after : List Node) :
    execAll (before ++ n :: after) = execAll (before ++ after) := by
  rw [execAll_append, execAll_append, execAll, h, pure_bind]

end Node

/-- Programs whose declarations are run alike end alike. -/
theorem Program.run_congr {p q : Program} (h : Node.execAll p.decls = Node.execAll q.decls) :
    p.run = q.run := by
  rw [run, run, Node.run, Node.run, node, node, Node.exec, Node.exec, h]

/-- Every program that is read from tokens consists of functions with bodies. Such a program ends
as the program with the single function `main` does that has the items of all its functions of this
name, and whatever else is declared, a function of another name has no effect. -/
theorem Program.run_merged :
    (∀ tokens source p, parse tokens source = .ok p → ∀ d ∈ p.decls, d.hasBody = true) ∧
      (∀ p : Program, (∀ d ∈ p.decls, d.hasBody = true) →
        ∀ type params, (p.merged type params).run = p.run) ∧
      ∀ before after type name params items, name ≠ mainFunction →
        Program.run ⟨before ++ .function type name params items :: after⟩ =
          Program.run ⟨before ++ after⟩ := by
  refine ⟨?_, ?_, ?_⟩
  · intro tokens source p h d hd
    cases Program.wellBuilt_of_parse h d hd with
    | intro _ => rfl
  · intro p h type params
    have hmerged : ∀ d ∈ (p.merged type params).decls, d.hasBody = true :=
      List.forall_mem_singleton.mpr rfl
    have hitems : (p.merged type params).decls.flatMap Node.mainItems =
        p.decls.flatMap Node.mainItems := by
      rw [merged, List.flatMap_singleton, Node.mainItems, if_pos rfl]
    refine run_congr ?_
    rw [Node.execAll_eq_within hmerged, Node.execAll_eq_within h, hitems]
  · intro before after type name params items hname
    refine run_congr (Node.execAll_skip ?_ before after)
    rw [Node.exec, if_neg hname]

/-- A first `main` sets a variable, a function of another name would divide by zero, and a second
`main` takes the remainder of that variable: it fails as in the one function with both items, and
as without the function between them. A function that is read from tokens has a body. -/
theorem Program.run_merged_interleaved :
    let assignment : Node := .expr (.assign "=" (.var "x") (.const (.number (.int 7))))
    let remainder : Node := .ret (.binary "%" (.var "x") (.const (.number .zero)))
    let division : Node := .ret (.binary "/" (.var "x") (.const (.number .zero)))
    let first : Node := .function "int" "main" [] [assignment]
    let second : Node := .function "void" "main" [] [remainder]
    let other : Node := .function "int" "f" [] [division]
    let sign (k : Kind) (lexeme : String) : Token := { kind := k, lexeme, line := 1 }
    let tokens := [sign .type "int", sign .identifier "f", sign .punct "(", sign .punct ")",
      sign .punct "\x7b", sign .punct "\x7d"]
    (∀ d ∈ [first, other, second], d.hasBody = true) ∧
      Program.run ⟨[first, other, second]⟩ =
        Program.run ⟨[.function "int" "main" [] [assignment, remainder]]⟩ ∧
      Program.run ⟨[first, other, second]⟩ = Program.run ⟨[first, second]⟩ ∧
      (Program.run ⟨[first, other, second]⟩).failure.map Failure.message =
        some (encode "in main: (x % 0): division by zero") ∧
      ∃ p, parse tokens [] = .ok p ∧ ∀ d ∈ p.decls, d.hasBody = true := by
  intro assignment remainder division first second other sign tokens
  obtain ⟨hparse, hmerged, hskip⟩ := Program.run_merged
  have hbodies : ∀ d ∈ [first, other, second], d.hasBody = true := by decide
  have htokens : parse tokens [] = .ok ⟨[.function "int" "f" [] []]⟩ := by
    have hfunction := @Grammar.Function.intro (sign .type "int") (sign .identifier "f")
      (sign .punct "(") (sign .punct ")") (sign .punct "\x7b") (sign .punct "\x7d") [] [] []
      rfl rfl (by decide) .none (by decide) (by decide) .nil (by decide)
    rw [Parse.parse_eq_ok_iff]
    exact .cons hfunction .nil
  refine ⟨hbodies, (hmerged ⟨[first, other, second]⟩ hbodies "int" []).symm,
    hskip [first] [second] "int" "f" [] [division] (by decide), by decide, _, htokens,
    hparse _ _ _ htokens⟩

end MiniC
