import MiniC.Proofs.Run.Footprint

/-!
# What a run adds to a state

Running a node only adds to the state it is run from. Printed values and
warnings stay in front of the new ones, no variable disappears, and a variable
that is not written keeps its value and its type. A return that comes first
gives the exit value, and none that comes later changes it. All of this holds
for a run that breaks off as well as for one that comes to its end.
-/

namespace MiniC

open Text

/-- The state that a computation ends in, whether it succeeds or fails. -/
def Run.finalState {α : Type} (x : Run α) (s : State) : State :=
  match x s with
  | .ok _ t => t
  | .error _ t => t

mutual

/-- The values of the returns that running a node completes, in order. A return is completed when
it has got its value. -/
def Node.returned : Node → State → List Value
  | .program decls, s => Node.returnedAll decls s
  | .prototype _ _ _, _ => []
  | .function _ name _ items, s => if name = mainFunction then Node.returnedAll items s else []
  | .block items, s => Node.returnedAll items s
  | .decl _ _ _, _ => []
  | .ret .hole, _ => [.zero]
  | .ret value, s =>
    match value.eval s with
    | .ok v _ => [v]
    | .error _ _ => []
  | .expr _, _ => []

/-- The values of the returns that running nodes in order completes. -/
def Node.returnedAll : List Node → State → List Value
  | [], _ => []
  | n :: rest, s =>
    n.returned s ++
      match n.exec s with
      | .ok _ t => Node.returnedAll rest t
      | .error _ _ => []

end

/-- One state adds to another, where the given nodes are all that may have been finished. -/
structure State.Grows (ns : List Node) (s t : State) : Prop where
  /-- The printed values are those from before and then new ones. -/
  prints : s.prints <+: t.prints
  /-- The warnings are those from before and then new ones. -/
  warnings : s.warnings <+: t.warnings
  /-- All variables are still there. -/
  names : ∀ x ∈ s.store.names, x ∈ t.store.names
  /-- A variable that no node declares or assigns keeps its value and its type. -/
  kept : ∀ x, (∀ n ∈ ns, n.written? ≠ some x) →
    t.store.lookup x = s.store.lookup x ∧ t.store.typeOf? x = s.store.typeOf? x

section Step

variable (n : Node) (v : Value) (s : State)

theorem isPrefix_prints_apply : s.prints <+: (n.effect.apply v s).prints := by
  fun_cases Node.effect n
  all_goals simp [Effect.apply, State.warn, State.print, State.leave]

variable {n} in
theorem lookup_apply {x : Bytes} (h : n.written? ≠ some x) :
    (n.effect.apply v s).store.lookup x = s.store.lookup x := by
  obtain ⟨-, hstore⟩ | ⟨_, name, rfl, hstore⟩ | ⟨_, name, _, rfl, -, hstore⟩ |
    ⟨_, name, _, rfl, hstore⟩ := n.store_cases v s
  · rw [hstore]
  all_goals
    rw [hstore, Store.lookup_put, if_neg]
    rintro rfl
    exact h rfl

variable {n} in
theorem exit_apply (h : n.isReturn = false) : (n.effect.apply v s).exit = s.exit := by
  fun_cases Node.effect n
  all_goals simp_all [Node.isReturn, Effect.apply, State.warn, State.print]

end Step

theorem Node.declaredType?_of_written? {n : Node} {x : Bytes} (h : n.written? ≠ some x) :
    n.declaredType? x = none := by
  cases n with
  | decl type name init =>
    refine if_neg ?_
    rintro rfl
    exact h rfl
  | _ => rfl

namespace State.Grows

variable {ns : List Node} {s t : State}

theorem refl (ns : List Node) (s : State) : s.Grows ns s where
  prints := List.prefix_refl _
  warnings := List.prefix_refl _
  names _ hx := hx
  kept _ _ := ⟨rfl, rfl⟩

/-- Finishing one of the nodes adds to a state. -/
theorem finish (h : s.Grows ns t) {n : Node} (hn : n ∈ ns) (v : Value) :
    s.Grows ns (n.effect.apply v t) where
  prints := h.prints.trans (isPrefix_prints_apply n v t)
  warnings := by
    rw [warnings_apply]
    exact h.warnings.trans (List.prefix_append _ _)
  names x hx := (mem_names_apply n v t x).mpr (.inl (h.names x hx))
  kept x hns := by
    obtain ⟨hlookup, htype⟩ := h.kept x hns
    rw [lookup_apply v t (hns n hn), typeOf?_apply, Node.declaredType?_of_written? (hns n hn)]
    exact ⟨hlookup, htype⟩

end State.Grows

namespace Steps

variable {s t : State} {ns : List Node}

/-- Finishing nodes in order adds to a state. -/
theorem grows {ms : List Node} (h : Steps s ns t) (hsub : ns ⊆ ms) : s.Grows ms t := by
  induction h with
  | nil => exact .refl ms s
  | snoc v _ ih =>
    rw [List.append_subset, List.cons_subset] at hsub
    exact (ih hsub.1).finish hsub.2.1 v

/-- Without a return among them, finished nodes leave the exit value alone. -/
theorem exit_eq (h : Steps s ns t) (hns : ∀ n ∈ ns, n.isReturn = false) : t.exit = s.exit := by
  induction h with
  | nil => rfl
  | snoc v _ ih =>
    rw [List.forall_mem_append, List.forall_mem_singleton] at hns
    rw [exit_apply v _ hns.2, ih hns.1]

end Steps

namespace Run

variable {α β : Type}

theorem finalState_bind (x : Run α) (following : α → Run β) (s : State) :
    (x >>= following).finalState s =
      match x s with
      | .ok a t => (following a).finalState t
      | .error _ t => t := by
  rw [finalState, bind_apply]
  cases x s <;> rfl

@[simp] theorem finalState_within (c : Context) (x : Run α) (s : State) :
    (within c x).finalState s = x.finalState s := by
  rw [finalState, within, finalState]
  cases x s <;> rfl

/-- A computation that follows nodes has finished a first part of them when it ends. -/
theorem Follows.exists_steps {x : Run α} {ns : List Node} (h : Follows x ns) (s : State) :
    ∃ before, before <+: ns ∧ Steps s before (x.finalState s) := by
  unfold finalState
  cases hx : x s with
  | ok a t => exact ⟨ns, List.prefix_refl ns, h.ok hx⟩
  | error f t =>
    obtain ⟨-, before, after, rfl, hsteps⟩ := h.error hx
    exact ⟨before, List.prefix_append _ _, hsteps⟩

/-- A computation without returns leaves the exit value alone. -/
theorem Follows.exit_eq {x : Run α} {ns : List Node} (h : Follows x ns)
    (hns : ∀ n ∈ ns, n.isReturn = false) (s : State) : (x.finalState s).exit = s.exit := by
  obtain ⟨before, hbefore, hsteps⟩ := h.exists_steps s
  exact hsteps.exit_eq fun n hn => hns n (hbefore.subset hn)

end Run

theorem Node.isReturn_of_mem_walk_decl (type name : Bytes) (init : Expr) :
    ∀ n ∈ (Node.decl type name init).walk, n.isReturn = false := by
  have hinit : ∀ n ∈ init.optionalWalk, n.isReturn = false := by
    cases init with
    | hole => exact List.forall_mem_nil _
    | _ => exact Expr.isReturn_of_mem_walk _
  rw [Node.walk, List.forall_mem_append, List.forall_mem_singleton]
  exact ⟨hinit, rfl⟩

/-- A return gives its value, if it gets one, to a run that has no exit value yet. -/
theorem Node.exit_ret (value : Expr) (s : State) :
    ((Node.ret value).exec.finalState s).exit = s.exit.or ((Node.ret value).returned s).head? := by
  by_cases h : value = .hole
  · subst h
    rfl
  · have hexit := value.follows_eval.exit_eq value.isReturn_of_mem_walk s
    rw [Node.exec, Node.returned, Run.finalState_bind]
    · unfold Run.finalState at hexit
      cases heval : value.eval s with
      | ok v t =>
        rw [heval] at hexit
        change t.exit.or (some v) = _
        rw [hexit]
        rfl
      | error f t =>
        rw [heval] at hexit
        change t.exit = s.exit.or none
        rw [hexit, Option.or_none]
    all_goals exact h

mutual

/-- The exit value behind a node is the one before it, or else that of its first completed
return. -/
theorem Node.exit_exec : (n : Node) → (s : State) →
    (n.exec.finalState s).exit = s.exit.or (n.returned s).head?
  | .program decls, s => by
    rw [Node.exec, Node.returned]
    exact Node.exit_execAll decls s
  | .prototype _ _ _, s => (Option.or_none).symm
  | .function type name params items, s => by
    rw [Node.exec, Node.returned]
    by_cases h : name = mainFunction
    · rw [if_pos h, if_pos h, Run.finalState_within]
      exact Node.exit_execAll items s
    · rw [if_neg h, if_neg h]
      exact Option.or_none.symm
  | .block items, s => by
    rw [Node.exec, Node.returned]
    exact Node.exit_execAll items s
  | .decl type name init, s => by
    have hwalk := Node.isReturn_of_mem_walk_decl type name init
    rw [(Node.follows_exec _).exit_eq hwalk, Node.returned, List.head?_nil, Option.or_none]
  | .ret value, s => Node.exit_ret value s
  | .expr e, s => by
    have hwalk : ∀ n ∈ (Node.expr e).walk, n.isReturn = false := e.isReturn_of_mem_walk
    rw [(Node.follows_exec _).exit_eq hwalk, Node.returned, List.head?_nil, Option.or_none]

theorem Node.exit_execAll : (ns : List Node) → (s : State) →
    ((Node.execAll ns).finalState s).exit = s.exit.or (Node.returnedAll ns s).head?
  | [], s => Option.or_none.symm
  | n :: rest, s => by
    have hn := n.exit_exec s
    rw [Node.execAll, Node.returnedAll, Run.finalState_bind, List.head?_append]
    unfold Run.finalState at hn
    cases hexec : n.exec s with
    | ok a t =>
      rw [hexec] at hn
      dsimp only at hn ⊢
      rw [Node.exit_execAll rest t, hn, Option.or_assoc]
    | error f t =>
      rw [hexec] at hn
      dsimp only at hn ⊢
      rw [hn, List.head?_nil, Option.or_none]

end

/-- Running a node, whether it fails or not, adds to the state it is run from, and leaves alone the
variables that no node of its walk declares or assigns. An exit value stays as it is; without one,
the value of the first completed return becomes the exit value. -/
theorem Node.grows_exec (n : Node) (s : State) :
    s.Grows n.walk (n.exec.finalState s) ∧
      (∀ v, s.exit = some v → (n.exec.finalState s).exit = some v) ∧
      (s.exit = none → (n.exec.finalState s).exit = (n.returned s).head?) := by
  obtain ⟨before, hbefore, hsteps⟩ := n.follows_exec.exists_steps s
  refine ⟨hsteps.grows hbefore.subset, ?_, ?_⟩
  · intro v hv
    rw [n.exit_exec, hv, Option.some_or]
  · intro hnone
    rw [n.exit_exec, hnone, Option.none_or]

/-- Items that return 2, would return 3 and then fail within an assignment to `y`, run on a state
with a variable `z`: the first return counts unless there has been one before, `y` never comes to
be, and `z` stays as it was. -/
theorem Node.grows_exec_failing :
    let number (i : Int64) : Expr := .const (.number (.int i))
    let items : Node := .block [.ret (number 2), .decl "int" "x" (number 1), .ret (number 3),
      .expr (.assign "=" (.var "y") (.binary "/" (.var "x") (number 0)))]
    let s : State := { State.initial with store := (Store.empty.assign "z" (.int 5)).2 }
    s.exit = none ∧ (items.exec.finalState s).exit = some (.int 2) ∧
      ((items.exec.finalState (s.leave (.int 7))).exit = some (.int 7)) ∧
      (∀ n ∈ items.walk, n.written? ≠ some (encode "z")) ∧
      (items.exec.finalState s).store.lookup "z" = s.store.lookup "z" ∧
      (items.exec.finalState s).store.names = [encode "x", encode "z"] := by
  intro number items s
  obtain ⟨hgrows, -, hexit⟩ := Node.grows_exec items s
  obtain ⟨-, hkept, -⟩ := Node.grows_exec items (s.leave (.int 7))
  have hunwritten : ∀ n ∈ items.walk, n.written? ≠ some (encode "z") := by decide
  exact ⟨rfl, hexit rfl, hkept _ rfl, hunwritten, (hgrows.kept _ hunwritten).1, by decide⟩

end MiniC
