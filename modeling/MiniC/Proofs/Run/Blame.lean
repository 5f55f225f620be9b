import Mathlib.Data.List.Infix
import MiniC.Proofs.Run.Walk

/-!
# The operation to blame

Where a run comes upon operations is read off the tree: each stands somewhere,
under the nodes that enclose it, and the places are visited in a fixed order.
An attempt is an operation in its place together with the values its operands
have got. A run attempts the places in order until an operation has no value,
which is the case for a division by zero and for an unknown operator only. If
there is such an attempt the run fails, and its failure is that of the first
one: the report names the enclosing nodes that have a name, outermost first,
then the operation and the cause.
-/

namespace MiniC

open Text

/-- The place of an operation in a tree. -/
structure Site where
  /-- The enclosing nodes, outermost first. -/
  enclosing : List Node
  /-- The sign of the operator. -/
  op : Bytes
  /-- The left operand. -/
  left : Expr
  /-- The right operand. -/
  right : Expr

namespace Site

/-- The operation that stands there. -/
def operation (p : Site) : Expr := .binary p.op p.left p.right

/-- A place seen from one node further out. -/
def under (n : Node) (p : Site) : Site := { p with enclosing := n :: p.enclosing }

end Site

/-- The places that evaluating an expression visits: those of the left operand, those of the right
one, and then the operation itself. Nothing in the arguments of a call is visited, and nothing in an
assignment to what is no variable. -/
def Expr.sites : Expr → List Site
  | .binary op left right =>
    (left.sites ++ right.sites).map (.under (.expr (.binary op left right))) ++
      [⟨[], op, left, right⟩]
  | .assign op (.var name) value =>
    value.sites.map (.under (.expr (.assign op (.var name) value)))
  | _ => []

mutual

/-- The places that running a node visits. Functions other than `main` are not entered. -/
def Node.sites : Node → List Site
  | .program decls => (Node.sitesAll decls).map (.under (.program decls))
  | .prototype _ _ _ => []
  | .function type name params items =>
    if name = mainFunction then
      (Node.sitesAll items).map (.under (.function type name params items))
    else []
  | .block items => (Node.sitesAll items).map (.under (.block items))
  | .decl type name init => init.sites.map (.under (.decl type name init))
  | .ret value => value.sites.map (.under (.ret value))
  | .expr e => e.sites

/-- The places that running nodes in order visits. -/
def Node.sitesAll : List Node → List Site
  | [] => []
  | n :: rest => n.sites ++ Node.sitesAll rest

end

/-- An operation whose operands have been evaluated. -/
structure Attempt where
  /-- Where the operation stands. -/
  site : Site
  /-- The value of the left operand. -/
  left : Value
  /-- The value of the right operand. -/
  right : Value

namespace Attempt

/-- An attempt seen from one node further out. -/
def under (n : Node) (a : Attempt) : Attempt := { a with site := a.site.under n }

@[simp] theorem site_under (n : Node) (a : Attempt) : (a.under n).site = a.site.under n := rfl

theorem map_site_under (n : Node) (as : List Attempt) :
    (as.map (.under n)).map site = (as.map site).map (.under n) := by
  simp [Function.comp_def]

end Attempt

/-- What is attempted once a computation has succeeded, and nothing if it fails. -/
def Run.behind {α : Type} (x : Run α) (s : State) (next : α → State → List Attempt) :
    List Attempt :=
  match x s with
  | .ok a t => next a t
  | .error _ _ => []

/-- The operations that evaluating an expression attempts. -/
def Expr.attempts : Expr → State → List Attempt
  | .binary op left right, s =>
    (left.attempts s).map (.under (.expr (.binary op left right))) ++
      left.eval.behind s fun x t =>
        (right.attempts t).map (.under (.expr (.binary op left right))) ++
          right.eval.behind t fun y _ => [⟨⟨[], op, left, right⟩, x, y⟩]
  | .assign op (.var name) value, s =>
    (value.attempts s).map (.under (.expr (.assign op (.var name) value)))
  | _, _ => []

mutual

/-- The operations that running a node attempts. -/
def Node.attempts : Node → State → List Attempt
  | .program decls, s => (Node.attemptsAll decls s).map (.under (.program decls))
  | .prototype _ _ _, _ => []
  | .function type name params items, s =>
    if name = mainFunction then
      (Node.attemptsAll items s).map (.under (.function type name params items))
    else []
  | .block items, s => (Node.attemptsAll items s).map (.under (.block items))
  | .decl type name init, s => (init.attempts s).map (.under (.decl type name init))
  | .ret value, s => (value.attempts s).map (.under (.ret value))
  | .expr e, s => e.attempts s

/-- The operations that running nodes in order attempts. -/
def Node.attemptsAll : List Node → State → List Attempt
  | [], _ => []
  | n :: rest, s => n.attempts s ++ n.exec.behind s fun _ t => Node.attemptsAll rest t

end

/-- When an operator has no value, whatever its left operand is, and why: it divides and its right
operand is zero, or the language does not know it. -/
inductive NoValue (op : Bytes) (y : Value) : Cause → Prop
  | division : op = "/" ∨ op = "%" → (y = .int 0 ∨ ∃ f : Float, y = .float f ∧ f == 0) →
    NoValue op y .divisionByZero
  | unsupported : (∀ o : Operator, (o.symbol : Bytes) ≠ op) → NoValue op y (.unsupportedOperator op)

/-- An attempt that has no value. -/
def Attempt.Fails (a : Attempt) : Prop := ∃ cause, NoValue a.site.op a.right cause

/-- How a report names a node that encloses the failure; most nodes are passed over. -/
def Node.part? : Node → Option Bytes
  | .function _ _ _ _ => some "in main"
  | .decl _ name _ => some ("declaration of " ++ name)
  | .expr (.assign _ (.var name) _) => some ("assignment to " ++ name)
  | _ => none

/-- How a report names the nodes around a place, outermost first. -/
def Site.parts (p : Site) : List Bytes := p.enclosing.filterMap Node.part?

/-- The parts of a report in order, each followed by a colon, and the cause. -/
def reported (parts : List Bytes) (cause : Bytes) : Bytes :=
  parts.flatMap (fun part => part ++ (": " : Bytes)) ++ cause

/-- A failure blames an attempt: it has its operation and its cause, its message names the nodes
around the operation, the operation and the cause, and unwrapping it drops one of these at a time
until the cause alone is left. -/
structure Failure.Blames (f : Failure) (a : Attempt) : Prop where
  operation : f.operation = a.site.operation
  cause : NoValue a.site.op a.right f.cause
  division : f.cause = .divisionByZero ↔ a.site.op = "/" ∨ a.site.op = "%"
  message : f.message = reported (a.site.parts ++ [a.site.operation.text]) f.cause.message
  chain : f.chain = (a.site.parts ++ [a.site.operation.text]).tails.map fun parts =>
    reported parts f.cause.message

namespace Operator

theorem isZero_iff {y : Value} :
    isZero y = true ↔ y = .int 0 ∨ ∃ f : Float, y = .float f ∧ f == 0 := by
  cases y <;> simp [isZero]

/-- Operators fail when they divide by zero, and only then. -/
theorem apply_eq_error_iff {o : Operator} {x y : Value} {cause : Cause} :
    o.apply x y = .error cause ↔
      (o = .div ∨ o = .rem) ∧ isZero y = true ∧ cause = .divisionByZero := by
  cases o with
  | div | rem =>
    simp only [apply, divide]
    split <;> simp_all [@eq_comm _ cause]
  | _ => simp [apply]

theorem dividing_iff {o : Operator} {op : Bytes} (h : (o.symbol : Bytes) = op) :
    o = .div ∨ o = .rem ↔ op = "/" ∨ op = "%" := by
  subst h
  cases o <;> decide

end Operator

/-- An operation has no value in exactly the two cases. -/
theorem applySymbol_eq_error_iff {op : Bytes} {x y : Value} {cause : Cause} :
    applySymbol op x y = .error cause ↔ NoValue op y cause := by
  rw [applySymbol]
  split
  · rename_i o ho
    have hsymbol := Operator.symbol_of_ofSymbol? ho
    rw [Operator.apply_eq_error_iff, Operator.dividing_iff hsymbol, Operator.isZero_iff]
    constructor
    · rintro ⟨hop, hzero, rfl⟩
      exact .division hop hzero
    · rintro (⟨hop, hzero⟩ | hnone)
      · exact ⟨hop, hzero, rfl⟩
      · exact absurd hsymbol (hnone o)
  · rename_i hnone
    constructor
    · intro h
      cases h
      refine .unsupported fun o hsymbol => ?_
      rw [← hsymbol, Operator.ofSymbol?_symbol] at hnone
      cases hnone
    · rintro (⟨hop, -⟩ | -)
      · rcases hop with rfl | rfl <;> exact absurd hnone (by decide)
      · rfl

/-- An operation that has no value lacks it by a division exactly if it divides. -/
theorem NoValue.division_iff {op : Bytes} {y : Value} {cause : Cause} (h : NoValue op y cause) :
    cause = .divisionByZero ↔ op = "/" ∨ op = "%" := by
  cases h with
  | division hop _ => simp [hop]
  | unsupported hnone =>
    have hdiv := hnone .div
    have hrem := hnone .rem
    simp_all [Operator.symbol, eq_comm]

namespace Attempt

theorem fails_iff {a : Attempt} :
    a.Fails ↔ ∃ cause, applySymbol a.site.op a.left a.right = .error cause := by
  simp only [Fails, applySymbol_eq_error_iff]

@[simp] theorem fails_under (n : Node) (a : Attempt) : (a.under n).Fails ↔ a.Fails := Iff.rfl

end Attempt

namespace Site

theorem parts_under (n : Node) (p : Site) : (p.under n).parts = n.part?.toList ++ p.parts := by
  cases h : n.part? <;> simp [parts, under, h]

end Site

namespace Failure

theorem intercalate_colon (parts : List Bytes) (cause : Bytes) :
    colon.intercalate (parts ++ [cause]) = reported parts cause := by
  induction parts with
  | nil => exact List.intercalate_singleton
  | cons part rest ih =>
    obtain ⟨next, others, hrest⟩ : ∃ next others, rest ++ [cause] = next :: others :=
      List.exists_cons_of_ne_nil (by simp)
    rw [List.cons_append, hrest, List.intercalate_cons_cons, ← hrest, ih]
    simp [reported, colon]

theorem reports_eq (cause : Bytes) (parts : List Bytes) :
    reports cause parts = parts.tails.map fun rest => reported rest cause := by
  induction parts with
  | nil => rfl
  | cons part rest ih => rw [reports, List.tails_cons, List.map_cons, ih, intercalate_colon]

end Failure

namespace Run

variable {α β : Type}

/-- A computation goes through places: if it succeeds, it has attempted the operations of all of
them and none fails; if it fails, its last attempt is the first that fails, at one of the places,
and its failure is that of this attempt. -/
inductive Visits (sites : List Site) : EStateM.Result Failure State α → List Attempt → Prop
  | ok {a : α} {t : State} {as : List Attempt} :
    as.map Attempt.site = sites → (∀ b ∈ as, ¬ b.Fails) → Visits sites (.ok a t) as
  | error {f : Failure} {t : State} {as : List Attempt} {a : Attempt} :
    (as ++ [a]).map Attempt.site <+: sites → (∀ b ∈ as, ¬ b.Fails) →
      f.operation = a.site.operation → NoValue a.site.op a.right f.cause →
        f.path.map Context.text = a.site.parts → Visits sites (.error f t) (as ++ [a])

namespace Visits

variable {sites sites' : List Site} {x : Run α} {s : State} {as : List Attempt}

/-- A computation without operations that cannot fail. -/
theorem quiet {a : α} {t : State} (hx : x s = .ok a t) : Visits [] (x s) [] := by
  rw [hx]
  exact .ok rfl (by simp)

theorem bind {following : α → Run β} {next : α → State → List Attempt}
    (hx : Visits sites (x s) as)
    (hf : ∀ a t, Visits sites' (following a t) (next a t)) :
    Visits (sites ++ sites') ((x >>= following) s) (as ++ x.behind s next) := by
  rw [bind_apply, behind]
  generalize x s = r at hx
  cases hx with
  | @ok a t _ hsites has =>
    have hnext := hf a t
    simp only
    generalize following a t = r' at hnext
    generalize next a t = bs at hnext
    cases hnext with
    | ok hsites' hbs =>
      refine .ok (by simp [hsites, hsites']) fun b hb => ?_
      exact (List.mem_append.mp hb).elim (has b) (hbs b)
    | error hsites' hbs hop hcause hpath =>
      rw [← List.append_assoc]
      refine .error ?_ (fun b hb => ?_) hop hcause hpath
      · rw [List.append_assoc, List.map_append, hsites]
        exact (List.prefix_append_right_inj sites).mpr hsites'
      · exact (List.mem_append.mp hb).elim (has b) (hbs b)
  | error hsites has hop hcause hpath =>
    rw [List.append_nil]
    exact .error (hsites.trans (List.prefix_append _ _)) has hop hcause hpath

/-- A computation whose failures take along the name of a node goes through its places under this
node. -/
theorem enclosed {n : Node} {y : Run α} (hx : Visits sites (x s) as)
    (hok : ∀ a t, x s = .ok a t → y s = .ok a t)
    (herror : ∀ f t, x s = .error f t → ∃ path, y s = .error { f with path } t ∧
      path.map Context.text = n.part?.toList ++ f.path.map Context.text) :
    Visits (sites.map (.under n)) (y s) (as.map (.under n)) := by
  generalize x s = r at hx hok herror
  cases hx with
  | ok hsites has =>
    rw [hok _ _ rfl]
    refine .ok (by rw [Attempt.map_site_under, hsites]) ?_
    simpa using has
  | @error f t as a hsites has hop hcause hpath =>
    obtain ⟨path, hy, htexts⟩ := herror f t rfl
    rw [hy, List.map_append, List.map_singleton]
    refine .error ?_ (by simpa using has) hop hcause ?_
    · have hmap := hsites.map (Site.under n)
      rwa [← Attempt.map_site_under, List.map_append, List.map_singleton] at hmap
    · rw [Attempt.site_under, Site.parts_under, ← hpath]
      exact htexts

/-- What is under a node that no report names. -/
theorem under {n : Node} (hn : n.part? = none) (hx : Visits sites (x s) as) :
    Visits (sites.map (.under n)) (x s) (as.map (.under n)) := by
  refine hx.enclosed (fun _ _ h => h) fun f t h => ⟨f.path, h, ?_⟩
  rw [hn]
  rfl

/-- What is under a node that reports name. -/
theorem within {n : Node} {c : Context} (hn : n.part? = some c.text)
    (hx : Visits sites (x s) as) :
    Visits (sites.map (.under n)) (Run.within c x s) (as.map (.under n)) := by
  refine hx.enclosed (fun a t h => ?_) fun f t h => ⟨c :: f.path, ?_, ?_⟩
  · rw [Run.within, h]
  · rw [Run.within, h]
    rfl
  · rw [hn]
    rfl

/-- What is done behind a computation and cannot fail adds no attempt. -/
theorem followed {following : α → Run β} (hx : Visits sites (x s) as)
    (hf : ∀ a t, ∃ b u, following a t = .ok b u) : Visits sites ((x >>= following) s) as := by
  have hquiet : ∀ a t, Visits [] (following a t) [] := by
    intro a t
    obtain ⟨b, u, hb⟩ := hf a t
    exact .quiet hb
  have hbehind : x.behind s (fun _ _ => []) = [] := by
    unfold behind
    split <;> rfl
  have hbind := hx.bind hquiet
  rwa [hbehind, List.append_nil, List.append_nil] at hbind

/-- An operation is attempted on the values of its operands. -/
theorem operate (op : Bytes) (left right : Expr) (v w : Value) (s : State) :
    Visits [⟨[], op, left, right⟩] (Run.operate op left right v w s)
      [⟨⟨[], op, left, right⟩, v, w⟩] := by
  rw [operate_apply]
  cases h : applySymbol op v w with
  | ok r =>
    refine .ok rfl fun b hb => ?_
    obtain rfl := List.mem_singleton.mp hb
    rw [Attempt.fails_iff]
    rintro ⟨cause, hcause⟩
    exact nomatch h.symm.trans hcause
  | error cause =>
    have hcause := applySymbol_eq_error_iff.mp h
    exact @error _ _ _ s [] ⟨⟨[], op, left, right⟩, v, w⟩ (List.prefix_refl _) (by simp) rfl
      hcause rfl

end Visits

end Run

/-- Evaluating an expression goes through its places. -/
theorem Expr.visits_eval : (e : Expr) → (s : State) → Run.Visits e.sites (e.eval s) (e.attempts s)
  | .hole, _ | .var _, _ | .call _ _, _ => .quiet rfl
  | .const (.number _), _ | .const (.string _), _ | .const (.other _ _), _ => .quiet rfl
  | .binary op left right, s => by
    rw [Expr.sites, Expr.attempts, Expr.eval_binary, List.map_append, List.append_assoc]
    refine ((left.visits_eval s).under rfl).bind fun x t => ?_
    refine ((right.visits_eval t).under rfl).bind fun y u => ?_
    exact .operate op left right x y u
  | .assign op target value, s => by
    cases target with
    | var name =>
      rw [Expr.sites, Expr.attempts, Expr.eval]
      exact ((value.visits_eval s).within rfl).followed fun v t => ⟨_, _, rfl⟩
    | _ => exact .quiet rfl

/-- Running a declaration goes through the places of its initializer. -/
theorem Node.visits_decl (type name : Bytes) (init : Expr) (s : State) :
    Run.Visits (Node.decl type name init).sites ((Node.decl type name init).exec s)
      ((Node.decl type name init).attempts s) := by
  by_cases h : init = .hole
  · subst h
    exact .quiet rfl
  · rw [Node.sites, Node.attempts, Node.exec]
    · exact ((init.visits_eval s).within rfl).followed fun v t => ⟨_, _, rfl⟩
    · exact h

/-- Running a return goes through the places of its value. -/
theorem Node.visits_ret (value : Expr) (s : State) :
    Run.Visits (Node.ret value).sites ((Node.ret value).exec s)
      ((Node.ret value).attempts s) := by
  by_cases h : value = .hole
  · subst h
    exact .quiet rfl
  · rw [Node.sites, Node.attempts, Node.exec]
    · refine Run.Visits.followed ((value.visits_eval s).under rfl) fun v t => ⟨_, _, rfl⟩
    · exact h

mutual

/-- Running a node goes through its places. -/
theorem Node.visits_exec : (n : Node) → (s : State) →
    Run.Visits n.sites (n.exec s) (n.attempts s)
  | .program decls, s => by
    rw [Node.sites, Node.attempts, Node.exec]
    exact (Node.visits_execAll decls s).under rfl
  | .prototype _ _ _, _ => .quiet rfl
  | .function type name params items, s => by
    rw [Node.sites, Node.attempts, Node.exec]
    by_cases h : name = mainFunction
    · rw [if_pos h, if_pos h, if_pos h]
      subst h
      exact (Node.visits_execAll items s).within rfl
    · rw [if_neg h, if_neg h, if_neg h]
      exact .quiet rfl
  | .block items, s => by
    rw [Node.sites, Node.attempts, Node.exec]
    exact (Node.visits_execAll items s).under rfl
  | .decl type name init, s => Node.visits_decl type name init s
  | .ret value, s => Node.visits_ret value s
  | .expr e, s => by
    rw [Node.sites, Node.attempts, Node.exec]
    exact (e.visits_eval s).followed fun v t => ⟨_, _, rfl⟩

/-- Running nodes in order goes through their places in order. -/
theorem Node.visits_execAll : (ns : List Node) → (s : State) →
    Run.Visits (Node.sitesAll ns) (Node.execAll ns s) (Node.attemptsAll ns s)
  | [], _ => .quiet rfl
  | n :: rest, s => by
    rw [Node.sitesAll, Node.attemptsAll, Node.execAll]
    exact (n.visits_exec s).bind fun _ t => Node.visits_execAll rest t

end

/-- A failure that has the operation and the cause of an attempt and names the nodes around it
blames this attempt. -/
theorem Failure.blames_of_path {f : Failure} {a : Attempt}
    (hop : f.operation = a.site.operation) (hcause : NoValue a.site.op a.right f.cause)
    (hpath : f.path.map Context.text = a.site.parts) : f.Blames a where
  operation := hop
  cause := hcause
  division := hcause.division_iff
  message := by rw [message, intercalate_colon, parts, hpath, hop]
  chain := by rw [chain, reports_eq, parts, hpath, hop]

/-- A run fails exactly if an operation that it attempts has no value. A run that comes to its end
has attempted the operations of all places in order. A run that fails has attempted those of the
first places up to one, where the operation has no value while all before have one, and its failure
blames this operation. -/
theorem Program.failure_blames_first (p : Program) :
    (p.run.failure.isSome ↔ ∃ a ∈ p.node.attempts .initial, a.Fails) ∧
      (p.run.failure = none → (p.node.attempts .initial).map Attempt.site = p.node.sites) ∧
        ∀ f, p.run.failure = some f → ∃ before a, p.node.attempts .initial = before ++ [a] ∧
          (before ++ [a]).map Attempt.site <+: p.node.sites ∧ (∀ b ∈ before, ¬ b.Fails) ∧
            f.Blames a := by
  have hvisits := p.node.visits_exec .initial
  unfold Program.run Node.run
  generalize p.node.exec .initial = r at hvisits
  generalize p.node.attempts .initial = as at hvisits
  cases hvisits with
  | ok hsites has =>
    refine ⟨?_, fun _ => hsites, by simp⟩
    simpa using has
  | @error f t before a hsites hbefore hop hcause hpath =>
    refine ⟨?_, by simp, ?_⟩
    · simp only [Option.isSome_some, true_iff]
      exact ⟨a, by simp, f.cause, hcause⟩
    · intro g hg
      cases hg
      exact ⟨before, a, rfl, hsites, hbefore, Failure.blames_of_path hop hcause hpath⟩

/-- A remainder inside an assignment inside a declaration fails, and neither the division in a
function that is not run nor the one that would come next. -/
theorem Program.failure_blames_first_remainder :
    let nothing : Expr := .binary "-" (.const (.number (.int 2))) (.const (.number (.int 2)))
    let division : Node := .ret (.binary "/" nothing nothing)
    let remainder : Expr := .binary "%" (.const (.number (.int 4))) nothing
    let p : Program := ⟨[.function "int" "f" [] [division], .function "int" "main" []
      [.decl "int" "x" (.binary "+" nothing (.assign "=" (.var "y") remainder)), division]]⟩
    ∃ f before a, p.run.failure = some f ∧ p.node.attempts .initial = before ++ [a] ∧
      f.Blames a ∧ a.site.operation = remainder ∧
        f.message =
          "in main: declaration of x: assignment to y: (4 % (2 - 2)): division by zero" := by
  intro nothing division remainder p
  obtain ⟨f, hf, hremainder, hmessage⟩ : ∃ f, p.run.failure = some f ∧ f.operation = remainder ∧
      f.message =
        "in main: declaration of x: assignment to y: (4 % (2 - 2)): division by zero" :=
    ⟨_, rfl, rfl, by decide⟩
  obtain ⟨before, a, has, -, -, hblames⟩ := (Program.failure_blames_first p).2.2 f hf
  exact ⟨f, before, a, hf, has, hblames, hblames.operation.symm.trans hremainder, hmessage⟩

end MiniC
