import MiniC.Proofs.Run.Walk

/-!
# States on the way

The states that a run passes through are those it is in when some node has just
been finished. Each comes with the nodes finished so far, which are a history of
the run: they lead to the state step by step. A run that fails stops in the last
state it has passed through.
-/

namespace MiniC

open Text

/-- Evaluating an expression from a state passes through another, when the given nodes have been
finished. -/
inductive Expr.Reaches : Expr → State → List Node → State → Prop
  | start {e : Expr} {s : State} : Reaches e s [] s
  | finish {e : Expr} {s t : State} {v : Value} : e.eval s = .ok v t → Reaches e s e.walk t
  | left {op : Bytes} {left right : Expr} {s t : State} {ns : List Node} :
    Reaches left s ns t → Reaches (.binary op left right) s ns t
  | right {op : Bytes} {left right : Expr} {s t u : State} {x : Value} {ns : List Node} :
    left.eval s = .ok x u → Reaches right u ns t →
      Reaches (.binary op left right) s (left.walk ++ ns) t
  | value {op name : Bytes} {value : Expr} {s t : State} {ns : List Node} :
    Reaches value s ns t → Reaches (.assign op (.var name) value) s ns t

mutual

/-- Running a node from a state passes through another, when the given nodes have been
finished. -/
inductive Node.Reaches : Node → State → List Node → State → Prop
  | start {n : Node} {s : State} : Node.Reaches n s [] s
  | finish {n : Node} {s t : State} : n.exec s = .ok () t → Node.Reaches n s n.walk t
  | program {decls ns : List Node} {s t : State} :
    Node.ReachesAll decls s ns t → Node.Reaches (.program decls) s ns t
  | function {type : Bytes} {params items ns : List Node} {s t : State} :
    Node.ReachesAll items s ns t → Node.Reaches (.function type mainFunction params items) s ns t
  | block {items ns : List Node} {s t : State} :
    Node.ReachesAll items s ns t → Node.Reaches (.block items) s ns t
  | init {type name : Bytes} {init : Expr} {ns : List Node} {s t : State} :
    init ≠ .hole → init.Reaches s ns t → Node.Reaches (.decl type name init) s ns t
  | value {value : Expr} {ns : List Node} {s t : State} :
    value ≠ .hole → value.Reaches s ns t → Node.Reaches (.ret value) s ns t
  | expr {e : Expr} {ns : List Node} {s t : State} :
    e.Reaches s ns t → Node.Reaches (.expr e) s ns t

/-- Running nodes in order passes through a state within the first of them or behind it. -/
inductive Node.ReachesAll : List Node → State → List Node → State → Prop
  | head {n : Node} {rest ns : List Node} {s t : State} :
    n.Reaches s ns t → Node.ReachesAll (n :: rest) s ns t
  | tail {n : Node} {rest ns : List Node} {s t u : State} :
    n.exec s = .ok () u → Node.ReachesAll rest u ns t →
      Node.ReachesAll (n :: rest) s (n.walk ++ ns) t

end

/-- The finished nodes lead to the state that is passed through. -/
theorem Expr.Reaches.steps {e : Expr} {s t : State} {ns : List Node} (h : e.Reaches s ns t) :
    Steps s ns t := by
  induction h with
  | start => exact .nil
  | finish heval => exact (Expr.follows_eval _).ok heval
  | left _ ih => exact ih
  | right heval _ ih => exact ((Expr.follows_eval _).ok heval).append ih
  | value _ ih => exact ih

mutual

theorem Node.Reaches.steps {n : Node} {s t : State} {ns : List Node} :
    n.Reaches s ns t → Steps s ns t
  | .start => .nil
  | .finish h => n.follows_exec.ok h
  | .program h => h.steps
  | .function h => h.steps
  | .block h => h.steps
  | .init _ h => h.steps
  | .value _ h => h.steps
  | .expr h => h.steps

theorem Node.ReachesAll.steps {ms : List Node} {s t : State} {ns : List Node} :
    Node.ReachesAll ms s ns t → Steps s ns t
  | .head h => h.steps
  | .tail hexec h => ((Node.follows_exec _).ok hexec).append h.steps

end

namespace Run

variable {α β : Type} {x : Run α} {following : α → Run β} {s t : State} {f : Failure}

theorem bind_eq_error_iff :
    (x >>= following) s = .error f t ↔
      x s = .error f t ∨ ∃ a u, x s = .ok a u ∧ following a u = .error f t := by
  rw [bind_apply]
  constructor
  · intro h
    split at h
    · rename_i a u hx
      exact .inr ⟨a, u, hx, h⟩
    · rename_i g u hx
      cases h
      exact .inl hx
  · rintro (hx | ⟨a, u, hx, h⟩)
    · rw [hx]
    · rw [hx]
      exact h

theorem within_eq_error {c : Context} (h : within c x s = .error f t) :
    ∃ g, x s = .error g t := by
  unfold within at h
  split at h
  · cases h
  · rename_i g u hx
    cases h
    exact ⟨g, hx⟩

end Run

/-- An evaluation that fails stops in a state it has passed through. -/
theorem Expr.exists_reaches_of_error {e : Expr} {s t : State} {f : Failure}
    (h : e.eval s = .error f t) : ∃ ns, e.Reaches s ns t := by
  match e with
  | .hole | .var _ | .call _ _ => cases h
  | .const c => cases c <;> cases h
  | .binary op left right =>
    rw [Expr.eval_binary] at h
    rcases Run.bind_eq_error_iff.mp h with hl | ⟨x, u, hl, h⟩
    · obtain ⟨ns, hns⟩ := Expr.exists_reaches_of_error hl
      exact ⟨ns, .left hns⟩
    · rcases Run.bind_eq_error_iff.mp h with hr | ⟨y, w, hr, h⟩
      · obtain ⟨ns, hns⟩ := Expr.exists_reaches_of_error hr
        exact ⟨_, .right hl hns⟩
      · rw [Run.operate_apply] at h
        split at h
        · cases h
        · cases h
          exact ⟨_, .right hl (.finish hr)⟩
  | .assign op target value =>
    cases target with
    | var name =>
      rw [Expr.eval] at h
      rcases Run.bind_eq_error_iff.mp h with hv | ⟨x, u, -, h⟩
      · obtain ⟨g, hv⟩ := Run.within_eq_error hv
        obtain ⟨ns, hns⟩ := Expr.exists_reaches_of_error hv
        exact ⟨ns, .value hns⟩
      · cases h
    | _ => cases h

theorem Node.exists_reaches_of_decl_error {type name : Bytes} {init : Expr} {s t : State}
    {f : Failure} (h : (Node.decl type name init).exec s = .error f t) :
    ∃ ns, (Node.decl type name init).Reaches s ns t := by
  by_cases hinit : init = .hole
  · subst hinit
    cases h
  · rw [Node.exec] at h
    · rcases Run.bind_eq_error_iff.mp h with hv | ⟨x, u, -, h⟩
      · obtain ⟨g, hv⟩ := Run.within_eq_error hv
        obtain ⟨ns, hns⟩ := Expr.exists_reaches_of_error hv
        exact ⟨ns, .init hinit hns⟩
      · cases h
    · exact hinit

theorem Node.exists_reaches_of_ret_error {value : Expr} {s t : State} {f : Failure}
    (h : (Node.ret value).exec s = .error f t) : ∃ ns, (Node.ret value).Reaches s ns t := by
  by_cases hvalue : value = .hole
  · subst hvalue
    cases h
  · rw [Node.exec] at h
    · rcases Run.bind_eq_error_iff.mp h with hv | ⟨x, u, -, h⟩
      · obtain ⟨ns, hns⟩ := Expr.exists_reaches_of_error hv
        exact ⟨ns, .value hvalue hns⟩
      · cases h
    · exact hvalue

mutual

/-- A node that fails stops in a state it has passed through. -/
theorem Node.exists_reaches_of_error : (n : Node) → {s t : State} → {f : Failure} →
    n.exec s = .error f t → ∃ ns, n.Reaches s ns t
  | .program decls, _, _, _, h => by
    obtain ⟨ns, hns⟩ := Node.exists_reachesAll_of_error decls h
    exact ⟨ns, .program hns⟩
  | .prototype _ _ _, _, _, _, h => by cases h
  | .function type name params items, _, _, _, h => by
    rw [Node.exec] at h
    split at h
    · rename_i hname
      subst hname
      obtain ⟨g, h⟩ := Run.within_eq_error h
      obtain ⟨ns, hns⟩ := Node.exists_reachesAll_of_error items h
      exact ⟨ns, .function hns⟩
    · cases h
  | .block items, _, _, _, h => by
    obtain ⟨ns, hns⟩ := Node.exists_reachesAll_of_error items h
    exact ⟨ns, .block hns⟩
  | .decl _ _ _, _, _, _, h => Node.exists_reaches_of_decl_error h
  | .ret _, _, _, _, h => Node.exists_reaches_of_ret_error h
  | .expr e, _, _, _, h => by
    rw [Node.exec] at h
    rcases Run.bind_eq_error_iff.mp h with he | ⟨x, u, -, h⟩
    · obtain ⟨ns, hns⟩ := Expr.exists_reaches_of_error he
      exact ⟨ns, .expr hns⟩
    · cases h

theorem Node.exists_reachesAll_of_error : (ms : List Node) → {s t : State} → {f : Failure} →
    Node.execAll ms s = .error f t → ∃ ns, Node.ReachesAll ms s ns t
  | [], _, _, _, h => by cases h
  | n :: rest, _, _, _, h => by
    rw [Node.execAll] at h
    rcases Run.bind_eq_error_iff.mp h with hn | ⟨x, u, hn, h⟩
    · obtain ⟨ns, hns⟩ := n.exists_reaches_of_error hn
      exact ⟨ns, .head hns⟩
    · obtain ⟨ns, hns⟩ := Node.exists_reachesAll_of_error rest h
      exact ⟨_, .tail hn hns⟩

end

/-- A program stops in a state it has passed through, whether it fails or comes to its end. -/
theorem Program.exists_reaches_run (p : Program) :
    ∃ ns, p.node.Reaches .initial ns p.run.state := by
  unfold Program.run Node.run
  cases hexec : p.node.exec .initial with
  | ok a t => exact ⟨_, .finish hexec⟩
  | error f t => exact p.node.exists_reaches_of_error hexec

end MiniC
