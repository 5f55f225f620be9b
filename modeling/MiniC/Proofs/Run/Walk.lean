import MiniC.Proofs.Store
import MiniC.Run.Eval

/-!
# The walk of a tree

Which nodes a run evaluates, and in which order, is read off the tree alone: the
language has no branches, and a return does not end the walk. Each node is
listed behind the nodes it needs the values of. What finishing a node does to
the state depends on its syntax and, for a declaration, an assignment or a
return, on the value of its operand.

A computation follows a list of nodes if it finishes exactly these when it
succeeds, and if it fails at an operation among them, exactly those before it.
Evaluating a tree follows the walk of the tree.
-/

namespace MiniC

open Text

/-- The nodes that evaluating an expression evaluates, as they are finished. The arguments of a
call are not among them, and nothing of an assignment to what is no variable. -/
def Expr.walk : Expr → List Node
  | .binary op left right => left.walk ++ right.walk ++ [.expr (.binary op left right)]
  | .assign op (.var name) value => value.walk ++ [.expr (.assign op (.var name) value)]
  | e => [.expr e]

/-- The walk of an initializer or of the value of a return, which may be missing. -/
def Expr.optionalWalk : Expr → List Node
  | .hole => []
  | e => e.walk

mutual

/-- The nodes that running a node evaluates, as they are finished. Functions that are not run are
left out with all that is in them. -/
def Node.walk : Node → List Node
  | .program decls => Node.walkAll decls ++ [.program decls]
  | .prototype _ _ _ => []
  | .function type name params items =>
    if name = mainFunction then Node.walkAll items ++ [.function type name params items] else []
  | .block items => Node.walkAll items ++ [.block items]
  | .decl type name init => init.optionalWalk ++ [.decl type name init]
  | .ret value => value.optionalWalk ++ [.ret value]
  | .expr e => e.walk

/-- The walks of nodes, in order. -/
def Node.walkAll : List Node → List Node
  | [] => []
  | n :: rest => n.walk ++ Node.walkAll rest

end

/-- What finishing a node does to the state of a run. A value that it uses is the value of the
operand of the node. -/
inductive Effect where
  /-- Nothing. -/
  | none
  /-- A warning is raised. -/
  | warn (w : Warning)
  /-- A variable is printed. -/
  | print (format : Expr) (name : Bytes)
  /-- A variable is declared without a value. -/
  | declareZero (name type : Bytes)
  /-- A variable is declared with the value. -/
  | declare (name type : Bytes)
  /-- The value is assigned to a variable. -/
  | assign (name : Bytes)
  /-- Zero is returned. -/
  | leaveZero
  /-- The value is returned. -/
  | leave

/-- The effect of a node, which its syntax decides. -/
def Node.effect : Node → Effect
  | .decl type name .hole => .declareZero name type
  | .decl type name _ => .declare name type
  | .ret .hole => .leaveZero
  | .ret _ => .leave
  | .expr .hole => .warn .noRule
  | .expr (.const (.number _)) => .none
  | .expr (.const c) => .warn (.notNumeric c)
  | .expr (.assign _ (.var name) _) => .assign name
  | .expr (.assign _ target _) => .warn (.notAssignable target)
  | .expr (.call name (format :: arg :: _)) =>
    if name = printingFunction then
      match arg with
      | .var x => .print format x
      | _ => .warn (.notPrintable arg)
    else .none
  | _ => .none

/-- The state behind an effect that uses the given value. -/
def Effect.apply (v : Value) (s : State) : Effect → State
  | .none => s
  | .warn w => s.warn w
  | .print format name => s.print (printedValue format (s.store.lookup name))
  | .declareZero name type => { s with store := (s.store.declareZero name type).2 }
  | .declare name type => { s with store := (s.store.declare name type v).2 }
  | .assign name => { s with store := (s.store.assign name v).2 }
  | .leaveZero => s.leave .zero
  | .leave => s.leave v

/-- The variable that a node declares or assigns. -/
def Node.written? : Node → Option Bytes
  | .decl _ name _ => some name
  | .expr (.assign _ (.var name) _) => some name
  | _ => none

/-- A finished node leaves the variables alone, declares one without a value, declares one with
the value, or assigns the value to one. -/
theorem Node.store_cases (n : Node) (v : Value) (s : State) :
    (n.written? = none ∧ (n.effect.apply v s).store = s.store) ∨
      (∃ type name, n = .decl type name .hole ∧
        (n.effect.apply v s).store = s.store.put ⟨name, some type, .zero⟩) ∨
      (∃ type name init, n = .decl type name init ∧ init ≠ .hole ∧
        (n.effect.apply v s).store = s.store.put ⟨name, some type, v.coerce type⟩) ∨
      ∃ op name value, n = .expr (.assign op (.var name) value) ∧
        (n.effect.apply v s).store = s.store.put
          ⟨name, s.store.typeOf? name, v.coerce ((s.store.typeOf? name).getD Store.untyped)⟩ := by
  fun_cases Node.effect n with
  | case1 type name => exact .inr (.inl ⟨type, name, rfl, rfl⟩)
  | case2 type name init h => exact .inr (.inr (.inl ⟨type, name, init, rfl, h, rfl⟩))
  | case8 op name value => exact .inr (.inr (.inr ⟨op, name, value, rfl, rfl⟩))
  | _ => exact .inl (by simp_all [written?, Effect.apply, State.warn, State.print, State.leave])

/-- One state comes out of another by finishing nodes in order, whatever the values of their
operands are. -/
inductive Steps (s : State) : List Node → State → Prop
  | nil : Steps s [] s
  | snoc {ns : List Node} {n : Node} {t : State} (v : Value) :
    Steps s ns t → Steps s (ns ++ [n]) (n.effect.apply v t)

namespace Steps

variable {s t u : State} {ns ms : List Node}

theorem single (n : Node) (v : Value) : Steps s [n] (n.effect.apply v s) := nil.snoc v

theorem append (h : Steps s ns t) (h' : Steps t ms u) : Steps s (ns ++ ms) u := by
  induction h' with
  | nil => rwa [List.append_nil]
  | snoc v _ ih =>
    rw [← List.append_assoc]
    exact ih.snoc v

end Steps

/-- A failure of an operation: no value comes out of its operator and some operands. -/
def Failure.Arises (f : Failure) : Prop :=
  ∃ op left right x y, f.operation = .binary op left right ∧ applySymbol op x y = .error f.cause

namespace Run

variable {α β : Type}

theorem bind_apply (x : Run α) (following : α → Run β) (s : State) :
    (x >>= following) s =
      match x s with
      | .ok a t => following a t
      | .error f t => .error f t := by
  change EStateM.bind x following s = _
  unfold EStateM.bind
  split <;> rename_i h <;> rw [h]

/-- A computation finishes the given nodes; if it fails, it fails at an operation among them and
has finished those before it. -/
structure Follows (x : Run α) (ns : List Node) : Prop where
  ok : ∀ {s t : State} {a : α}, x s = .ok a t → Steps s ns t
  error : ∀ {s t : State} {f : Failure}, x s = .error f t →
    f.Arises ∧ ∃ before after, ns = before ++ .expr f.operation :: after ∧ Steps s before t

namespace Follows

variable {x : Run α} {ns ms : List Node}

theorem pure (a : α) : Follows (Pure.pure a) [] where
  ok h := by
    cases h
    exact .nil
  error h := by cases h

theorem bind {following : α → Run β} (hx : Follows x ns) (hf : ∀ a, Follows (following a) ms) :
    Follows (x >>= following) (ns ++ ms) where
  ok := by
    intro s t b h
    rw [bind_apply] at h
    split at h
    · rename_i a u hu
      exact (hx.ok hu).append ((hf a).ok h)
    · cases h
  error := by
    intro s t f h
    rw [bind_apply] at h
    split at h
    · rename_i a u hu
      obtain ⟨harises, before, after, rfl, hsteps⟩ := (hf a).error h
      exact ⟨harises, ns ++ before, after, by simp, (hx.ok hu).append hsteps⟩
    · rename_i g u hu
      cases h
      obtain ⟨harises, before, after, rfl, hsteps⟩ := hx.error hu
      exact ⟨harises, before, after ++ ms, by simp, hsteps⟩

theorem within (c : Context) (hx : Follows x ns) : Follows (Run.within c x) ns where
  ok := by
    intro s t a h
    unfold Run.within at h
    split at h
    · rename_i hx'
      cases h
      exact hx.ok hx'
    · cases h
  error := by
    intro s t f h
    unfold Run.within at h
    split at h
    · cases h
    · rename_i g u hx'
      cases h
      obtain ⟨harises, before, after, hns, hsteps⟩ := hx.error hx'
      exact ⟨harises, before, after, hns, hsteps⟩

/-- A computation that cannot fail and has the effect of a node finishes this node. -/
theorem of_effect {n : Node} (h : ∀ s, ∃ a v, x s = .ok a (n.effect.apply v s)) : Follows x [n] where
  ok := by
    intro s t a hx
    obtain ⟨b, v, hb⟩ := h s
    cases hb.symm.trans hx
    exact .single n v
  error := by
    intro s t f hx
    obtain ⟨b, v, hb⟩ := h s
    cases hb.symm.trans hx

/-- A node without an effect of its own is finished along with what is in it. -/
theorem enclosed {n : Node} (hx : Follows x ns) (hn : n.effect = .none) :
    Follows x (ns ++ [n]) where
  ok h := by
    have hsteps := (hx.ok h).snoc (n := n) .zero
    rwa [hn] at hsteps
  error h := by
    obtain ⟨harises, before, after, rfl, hsteps⟩ := hx.error h
    exact ⟨harises, before, after ++ [n], by simp, hsteps⟩

end Follows

end Run

/-- A call has the effect of its node. -/
theorem State.call_eq_apply (s : State) (v : Value) (name : Bytes) :
    (args : List Expr) → s.call name args = (Node.expr (.call name args)).effect.apply v s
  | [] => rfl
  | [_] => rfl
  | format :: arg :: rest => by
    simp only [State.call, Node.effect]
    by_cases h : name = printingFunction
    · rw [if_pos h, if_pos h]
      cases arg <;> rfl
    · rw [if_neg h, if_neg h]
      rfl

/-- What is left of an operation when its operands have been evaluated. -/
def Run.operate (op : Bytes) (left right : Expr) (x y : Value) : Run Value :=
  match applySymbol op x y with
  | .ok v => pure v
  | .error cause => throw { path := [], operation := .binary op left right, cause }

theorem Expr.eval_binary (op : Bytes) (left right : Expr) :
    (Expr.binary op left right).eval =
      left.eval >>= fun x => right.eval >>= fun y => Run.operate op left right x y := by
  rw [Expr.eval]
  rfl

/-- An operation leaves the state as it is, whether it has a value or not. -/
theorem Run.operate_apply (op : Bytes) (left right : Expr) (x y : Value) (s : State) :
    Run.operate op left right x y s =
      match applySymbol op x y with
      | .ok v => .ok v s
      | .error cause => .error { path := [], operation := .binary op left right, cause } s := by
  unfold Run.operate
  cases applySymbol op x y <;> rfl

/-- An operation is finished, or it fails and the failure is its own. -/
theorem Run.follows_operate (op : Bytes) (left right : Expr) (x y : Value) :
    Run.Follows (Run.operate op left right x y) [.expr (.binary op left right)] where
  ok := by
    intro s t a h
    rw [Run.operate_apply] at h
    split at h
    · cases h
      exact .single _ .zero
    · cases h
  error := by
    intro s t f h
    rw [Run.operate_apply] at h
    split at h
    · cases h
    · rename_i cause hcause
      cases h
      exact ⟨⟨op, left, right, x, y, rfl, hcause⟩, [], [], rfl, .nil⟩

/-- Evaluating an expression follows its walk. -/
theorem Expr.follows_eval : (e : Expr) → Run.Follows e.eval e.walk
  | .hole => .of_effect fun _ => ⟨.zero, .zero, rfl⟩
  | .const (.number v) => .of_effect fun _ => ⟨v, .zero, rfl⟩
  | .const (.string _) => .of_effect fun _ => ⟨.zero, .zero, rfl⟩
  | .const (.other _ _) => .of_effect fun _ => ⟨.zero, .zero, rfl⟩
  | .var name => .of_effect fun s => ⟨s.store.lookup name, .zero, rfl⟩
  | .binary op left right => by
    rw [Expr.eval_binary, Expr.walk, List.append_assoc]
    refine left.follows_eval.bind fun x => right.follows_eval.bind fun y => ?_
    exact Run.follows_operate op left right x y
  | .assign op target value => by
    cases target with
    | var name =>
      rw [Expr.eval, Expr.walk]
      refine (value.follows_eval.within _).bind fun v => ?_
      exact .of_effect fun s => ⟨(s.store.assign name v).1, v, rfl⟩
    | _ => exact .of_effect fun _ => ⟨.zero, .zero, rfl⟩
  | .call name args => .of_effect fun s => ⟨.zero, .zero, by
      rw [← State.call_eq_apply]
      rfl⟩

namespace Node

theorem effect_decl (type name : Bytes) {init : Expr} (h : init ≠ .hole) :
    (Node.decl type name init).effect = .declare name type := by
  cases init with
  | hole => exact absurd rfl h
  | _ => rfl

theorem effect_ret {value : Expr} (h : value ≠ .hole) : (Node.ret value).effect = .leave := by
  cases value with
  | hole => exact absurd rfl h
  | _ => rfl

end Node

theorem Expr.optionalWalk_of_ne {e : Expr} (h : e ≠ .hole) : e.optionalWalk = e.walk := by
  cases e with
  | hole => exact absurd rfl h
  | _ => rfl

/-- Running a declaration follows its walk, with or without an initializer. -/
theorem Node.follows_decl (type name : Bytes) (init : Expr) :
    Run.Follows (Node.decl type name init).exec (Node.decl type name init).walk := by
  by_cases h : init = .hole
  · subst h
    exact .of_effect fun _ => ⟨(), .zero, rfl⟩
  · rw [Node.exec, Node.walk, Expr.optionalWalk_of_ne h]
    · refine (init.follows_eval.within _).bind fun v => ?_
      refine .of_effect fun _ => ⟨(), v, ?_⟩
      rw [effect_decl type name h]
      rfl
    · exact h

/-- Running a return follows its walk, with or without a value. -/
theorem Node.follows_ret (value : Expr) :
    Run.Follows (Node.ret value).exec (Node.ret value).walk := by
  by_cases h : value = .hole
  · subst h
    exact .of_effect fun _ => ⟨(), .zero, rfl⟩
  · rw [Node.exec, Node.walk, Expr.optionalWalk_of_ne h]
    · refine value.follows_eval.bind fun v => ?_
      refine .of_effect fun _ => ⟨(), v, ?_⟩
      rw [effect_ret h]
      rfl
    · exact h

mutual

/-- Running a node follows its walk. -/
theorem Node.follows_exec : (n : Node) → Run.Follows n.exec n.walk
  | .program decls => by
    rw [Node.exec, Node.walk]
    exact (Node.follows_execAll decls).enclosed rfl
  | .prototype _ _ _ => .pure ()
  | .function type name params items => by
    rw [Node.exec, Node.walk]
    split
    · exact ((Node.follows_execAll items).within _).enclosed rfl
    · exact .pure ()
  | .block items => by
    rw [Node.exec, Node.walk]
    exact (Node.follows_execAll items).enclosed rfl
  | .decl type name init => Node.follows_decl type name init
  | .ret value => Node.follows_ret value
  | .expr e => by
    rw [Node.exec, Node.walk, ← List.append_nil e.walk]
    exact e.follows_eval.bind fun _ => .pure ()

/-- Running nodes in order follows their walks in order. -/
theorem Node.follows_execAll : (ns : List Node) → Run.Follows (Node.execAll ns) (Node.walkAll ns)
  | [] => .pure ()
  | n :: rest => by
    rw [Node.execAll, Node.walkAll]
    exact n.follows_exec.bind fun _ => Node.follows_execAll rest

end

/-- A program that runs to its end has finished its whole walk. -/
theorem Program.steps_of_success {p : Program} (h : p.run.failure = none) :
    Steps .initial p.node.walk p.run.state := by
  unfold Program.run Node.run at h ⊢
  cases hexec : p.node.exec .initial with
  | ok a t => exact p.node.follows_exec.ok hexec
  | error f t =>
    rw [hexec] at h
    cases h

/-- A program that fails does so at an operation of its walk, and has finished what comes before. -/
theorem Program.steps_of_failure {p : Program} {f : Failure} (h : p.run.failure = some f) :
    f.Arises ∧ ∃ before after, p.node.walk = before ++ .expr f.operation :: after ∧
      Steps .initial before p.run.state := by
  unfold Program.run Node.run at h ⊢
  cases hexec : p.node.exec .initial with
  | ok a t =>
    rw [hexec] at h
    cases h
  | error g t =>
    rw [hexec] at h
    cases h
    exact p.node.follows_exec.error hexec

end MiniC
