import Mathlib.Data.List.Infix
import MiniC.Proofs.Run.WellBuilt
import MiniC.Proofs.Run.Words

/-!
# Integer programs

As long as a run comes upon no floating constant and no declaration of a
floating type, it computes with words: step by step its state is that of the
same program over words. Floating numbers arise only where a word is printed by
a format that asks for one, and nothing reads them again. The run divides by
zero where the program over words does.
-/

namespace MiniC

open Text

/-! ## What a run evaluates -/

/-- Evaluating an expression from a state evaluates a node, itself or one inside it. -/
inductive Expr.Evaluates : Expr → State → Node → Prop
  | self {e : Expr} {s : State} : Evaluates e s (.expr e)
  | left {op : Bytes} {left right : Expr} {s : State} {n : Node} :
    Evaluates left s n → Evaluates (.binary op left right) s n
  | right {op : Bytes} {left right : Expr} {s t : State} {x : Value} {n : Node} :
    left.eval s = .ok x t → Evaluates right t n → Evaluates (.binary op left right) s n
  | value {op name : Bytes} {value : Expr} {s : State} {n : Node} :
    Evaluates value s n → Evaluates (.assign op (.var name) value) s n

mutual

/-- Running a node from a state evaluates a node, itself or one inside it. -/
inductive Node.Evaluates : Node → State → Node → Prop
  | self {n : Node} {s : State} : Node.Evaluates n s n
  | program {decls : List Node} {s : State} {n : Node} :
    Node.EvaluatesAll decls s n → Node.Evaluates (.program decls) s n
  | function {type : Bytes} {params items : List Node} {s : State} {n : Node} :
    Node.EvaluatesAll items s n → Node.Evaluates (.function type mainFunction params items) s n
  | block {items : List Node} {s : State} {n : Node} :
    Node.EvaluatesAll items s n → Node.Evaluates (.block items) s n
  | init {type name : Bytes} {init : Expr} {s : State} {n : Node} :
    init ≠ .hole → init.Evaluates s n → Node.Evaluates (.decl type name init) s n
  | value {value : Expr} {s : State} {n : Node} :
    value ≠ .hole → value.Evaluates s n → Node.Evaluates (.ret value) s n
  | expr {e : Expr} {s : State} {n : Node} : e.Evaluates s n → Node.Evaluates (.expr e) s n

/-- Running nodes in order evaluates a node within the first of them or behind it. -/
inductive Node.EvaluatesAll : List Node → State → Node → Prop
  | head {m : Node} {rest : List Node} {s : State} {n : Node} :
    m.Evaluates s n → Node.EvaluatesAll (m :: rest) s n
  | tail {m : Node} {rest : List Node} {s t : State} {n : Node} :
    m.exec s = .ok () t → Node.EvaluatesAll rest t n → Node.EvaluatesAll (m :: rest) s n

end

/-- A node that is neither a floating constant nor a declaration of a floating type, and whose
operator, if it has one, is one of the language. -/
def Node.Integral : Node → Prop
  | .expr (.const (.number (.float _))) => False
  | .expr (.binary op _ _) => IsOperator op
  | .decl type _ _ => type ≠ "float" ∧ type ≠ "double"
  | _ => True

/-! ## Arithmetic on words -/

theorem compareInt_eq_compare (x y : Int64) : compareInt x y = compare x.toInt y.toInt := by
  simp only [compareInt, Int64.lt_iff_toInt_lt]
  split
  · rename_i h
    exact (Int.compare_eq_lt.mpr h).symm
  · split
    · rename_i h
      exact (Int.compare_eq_gt.mpr h).symm
    · have heq : x.toInt = y.toInt := by omega
      exact (Int.compare_eq_eq.mpr heq).symm

theorem Value.ofBool_eq_conditionWord {b : Bool} {p : Prop} [Decidable p] (h : b = true ↔ p) :
    Value.ofBool b = .int (conditionWord p) := by
  unfold Value.ofBool conditionWord
  simp only [h]

/-- The word that an operation gives as a value; without one it divides by zero. -/
def wordResult : Option Int64 → Except Cause Value
  | some w => .ok (.int w)
  | none => .error .divisionByZero

namespace Operator

theorem divide_int (onInts : Int64 → Int64 → Int64) (onFloats : Float → Float → Float)
    (x y : Int64) :
    divide onInts onFloats (.int x) (.int y) =
      wordResult (if y.toInt = 0 then none else some (onInts x y)) := by
  have hzero : isZero (.int y) = true ↔ y.toInt = 0 := by
    rw [← Int64.toInt_zero, Int64.toInt_inj]
    exact beq_iff_eq
  simp only [divide, hzero]
  split <;> rfl

/-- On words, every operator does what its sign stands for. -/
theorem apply_int (o : Operator) (x y : Int64) :
    o.apply (.int x) (.int y) = wordResult (joinWords o.symbol x y) := by
  cases o with
  | add =>
    have hsum : x + y = .ofInt (x.toInt + y.toInt) := by
      rw [Int64.ofInt_add, Int64.ofInt_toInt, Int64.ofInt_toInt]
    exact congrArg (fun w => wordResult (some w)) hsum
  | sub =>
    have hdifference : x - y = .ofInt (x.toInt - y.toInt) := by
      rw [Int64.ofInt_sub, Int64.ofInt_toInt, Int64.ofInt_toInt]
    exact congrArg (fun w => wordResult (some w)) hdifference
  | mul =>
    have hproduct : x * y = .ofInt (x.toInt * y.toInt) := by
      rw [Int64.ofInt_mul, Int64.ofInt_toInt, Int64.ofInt_toInt]
    exact congrArg (fun w => wordResult (some w)) hproduct
  | div =>
    have hquotient : x / y = .ofInt (x.toInt.tdiv y.toInt) := by
      rw [Int64.ofInt_tdiv x.minValue_le_toInt x.toInt_le y.minValue_le_toInt y.toInt_le,
        Int64.ofInt_toInt, Int64.ofInt_toInt]
    rw [apply, divide_int, hquotient]
    rfl
  | rem =>
    have hremainder : x % y = .ofInt (x.toInt.tmod y.toInt) := by
      rw [Int64.ofInt_tmod x.minValue_le_toInt x.toInt_le y.minValue_le_toInt y.toInt_le,
        Int64.ofInt_toInt, Int64.ofInt_toInt]
    rw [apply, divide_int, hremainder]
    rfl
  | bitAnd | bitOr | bitXor => rfl
  | lt | gt | eq | ne =>
    apply congrArg Except.ok
    apply Value.ofBool_eq_conditionWord
    simp [Value.compare?, compareInt_eq_compare, Int.compare_eq_lt, Int.compare_eq_gt]
  | le | ge =>
    apply congrArg Except.ok
    apply Value.ofBool_eq_conditionWord
    simp only [Value.compare?, compareInt_eq_compare, Bool.or_eq_true, beq_iff_eq,
      Option.some.injEq, Int.compare_eq_lt, Int.compare_eq_gt, Int.compare_eq_eq]
    omega

end Operator

theorem IsOperator.applySymbol_int {op : Bytes} (h : IsOperator op) (x y : Int64) :
    applySymbol op (.int x) (.int y) = wordResult (joinWords op x y) := by
  obtain ⟨o, ho⟩ := h.exists_ofSymbol?
  rw [applySymbol, ho, ← Operator.symbol_of_ofSymbol? ho]
  exact o.apply_int x y

/-! ## States and memories -/

/-- The value that is printed for a word: a floating one if the first argument of the call is a
string with `%f` or `%lf` and without `%d` in it. -/
def PrintedWord.value (p : PrintedWord) : Value :=
  match p.format with
  | .const (.string format) =>
    if (("%f" : Bytes) <:+: format ∨ ("%lf" : Bytes) <:+: format) ∧
        ¬ ("%d" : Bytes) <:+: format then
      .float (.ofInt p.word.toInt)
    else .int p.word
  | _ => .int p.word

/-- A memory describes a state: they have the same variables with the same words in them, the same
printed values, and the same exit value. -/
structure Memory.Describes (m : Memory) (s : State) : Prop where
  /-- The variables. -/
  words : ∀ x, (s.store.find? x).map Binding.value = (m.words x).map Value.int
  /-- The printed values. -/
  prints : s.prints = m.prints.map PrintedWord.value
  /-- The exit value. -/
  exit : s.exit = m.exit.map Value.int

/-- A memory describes a state in which no variable has a floating type. -/
structure Memory.Tracks (m : Memory) (s : State) : Prop extends m.Describes s where
  /-- Declared types hold integers. -/
  types : ∀ x type, s.store.typeOf? x = some type → ¬ Value.isFloating type

theorem mentions_iff {part text : Bytes} : mentions part text = true ↔ part <:+: text := by
  induction text with
  | nil => rw [mentions, List.isEmpty_iff, List.infix_nil]
  | cons b rest ih =>
    rw [mentions, Bool.or_eq_true, List.isPrefixOf_iff_prefix, ih, List.infix_cons_iff]

theorem PrintedWord.printedValue_int (p : PrintedWord) :
    printedValue p.format (.int p.word) = p.value := by
  unfold printedValue PrintedWord.value
  cases p.format with
  | const c =>
    cases c with
    | string format =>
      simp only [formatted, Bool.or_eq_true, mentions_iff]
      by_cases hd : ("%d" : Bytes) <:+: format
      · rw [if_pos hd, if_neg (fun h => h.2 hd)]
        rfl
      · simp only [hd, not_false_eq_true, and_true, if_false]
        rfl
    | _ => rfl
  | _ => rfl

theorem Value.coerce_int {type : Bytes} (h : ¬ Value.isFloating type) (w : Int64) :
    (Value.int w).coerce type = .int w := by
  rw [Value.coerce, if_neg h]
  rfl

theorem State.call_of_ne {name : Bytes} (h : name ≠ printingFunction) (s : State)
    (args : List Expr) : s.call name args = s := by
  unfold State.call
  split
  · rw [if_neg h]
  · rfl

theorem Memory.call_of_ne {name : Bytes} (h : name ≠ printingFunction) (m : Memory)
    (args : List Expr) : m.call name args = m := by
  unfold Memory.call
  split
  · exact if_neg h
  · rfl

namespace Memory.Tracks

variable {m : Memory} {s : State}

theorem blank : Memory.blank.Tracks .initial where
  words _ := rfl
  prints := rfl
  exit := rfl
  types := by
    intro x type h
    cases h

theorem lookup (h : m.Tracks s) (x : Bytes) : s.store.lookup x = .int (m.read x) := by
  rw [Store.lookup, h.words, Memory.read]
  cases m.words x <;> rfl

/-- Writing a word to a variable without a floating type. -/
theorem put (h : m.Tracks s) (name : Bytes) (w : Int64) {type : Option Bytes}
    (htype : ∀ t, type = some t → ¬ Value.isFloating t) :
    (m.write name w).Tracks { s with store := s.store.put ⟨name, type, .int w⟩ } where
  words x := by
    rw [Store.find?_put]
    by_cases hx : name = x
    · simp [Memory.write, hx]
    · simp [Memory.write, hx, h.words]
  prints := h.prints
  exit := h.exit
  types x t ht := by
    rw [Store.typeOf?_put] at ht
    split at ht
    · exact htype t ht
    · exact h.types x t ht

/-- Declaring a variable of an integer type stores a word as it is. -/
theorem declare (h : m.Tracks s) (name : Bytes) {type : Bytes}
    (htype : ¬ Value.isFloating type) (w : Int64) :
    (m.write name w).Tracks { s with store := (s.store.declare name type (.int w)).2 } := by
  rw [Store.declare, Value.coerce_int htype]
  apply h.put name w
  rintro _ ⟨⟩
  exact htype

/-- Assigning to a variable stores a word as it is. -/
theorem assign (h : m.Tracks s) (name : Bytes) (w : Int64) :
    (s.store.assign name (.int w)).1 = .int w ∧
      (m.write name w).Tracks { s with store := (s.store.assign name (.int w)).2 } := by
  rw [Store.assign, Value.coerce_int (Store.not_isFloating_getD (h.types name))]
  exact ⟨rfl, h.put name w (h.types name)⟩

theorem warn (h : m.Tracks s) (w : Warning) : m.Tracks (s.warn w) :=
  { h with }

theorem leave (h : m.Tracks s) (w : Int64) : (m.leave w).Tracks (s.leave (.int w)) where
  words := h.words
  prints := h.prints
  exit := by
    rw [State.leave, h.exit]
    cases hexit : m.exit <;> simp [Memory.leave, hexit]
  types := h.types

theorem print (h : m.Tracks s) (format : Expr) (x : Bytes) :
    { m with prints := m.prints ++ [⟨format, m.read x⟩] : Memory }.Tracks
      (s.print (printedValue format (s.store.lookup x))) := by
  have hvalue := PrintedWord.printedValue_int ⟨format, m.read x⟩
  refine { h with prints := ?_ }
  rw [State.print, h.prints, h.lookup, hvalue, List.map_append]
  rfl

/-- A call prints the same on both sides, or nothing. -/
theorem call (h : m.Tracks s) (name : Bytes) (args : List Expr) :
    (m.call name args).Tracks (s.call name args) := by
  by_cases hname : name = printingFunction
  · subst hname
    match args with
    | [] | [_] => exact h
    | format :: arg :: rest =>
      cases arg with
      | var x => exact h.print format x
      | _ => exact h.warn _
  · rwa [State.call_of_ne hname, Memory.call_of_ne hname]

end Memory.Tracks

/-! ## Runs and programs over words -/

namespace Run

variable {α β γ δ : Type}

/-- Started in a state, a computation does what a computation on words has done: it succeeds with a
related result, or it divides by zero as well. -/
def Meets (x : Run α) (s : State) (r : Option γ) (related : α → State → γ → Prop) : Prop :=
  match r with
  | some c => ∃ a t, x s = .ok a t ∧ related a t c
  | none => ∃ f t, x s = .error f t ∧ f.cause = .divisionByZero

namespace Meets

variable {x : Run α} {s : State} {r : Option γ} {related : α → State → γ → Prop}

theorem of_ok {a : α} {t : State} {c : γ} (hx : x s = .ok a t) (h : related a t c) :
    Meets x s (some c) related := ⟨a, t, hx, h⟩

theorem bind {following : α → Run β} {next : γ → Option δ} {related' : β → State → δ → Prop}
    (hx : Meets x s r related)
    (hf : ∀ a t c, x s = .ok a t → related a t c → Meets (following a) t (next c) related') :
    Meets (x >>= following) s (r >>= next) related' := by
  cases r with
  | none =>
    obtain ⟨f, t, herror, hcause⟩ := hx
    refine ⟨f, t, ?_, hcause⟩
    rw [bind_apply, herror]
  | some c =>
    obtain ⟨a, t, hok, hrelated⟩ := hx
    have hrest := hf a t c hok hrelated
    unfold Meets at hrest ⊢
    simp only [bind_apply, hok]
    exact hrest

theorem within (c : Context) (hx : Meets x s r related) : Meets (Run.within c x) s r related := by
  cases r with
  | none =>
    obtain ⟨f, t, herror, hcause⟩ := hx
    refine ⟨f.within c, t, ?_, hcause⟩
    rw [Run.within, herror]
  | some c =>
    obtain ⟨a, t, hok, hrelated⟩ := hx
    refine ⟨a, t, ?_, hrelated⟩
    rw [Run.within, hok]

end Meets

end Run

/-- A value is the word of a result, and the memory of the result tracks the state. -/
def MeetsWord (v : Value) (t : State) (r : Int64 × Memory) : Prop := v = .int r.1 ∧ r.2.Tracks t

/-- An operation of the language on words. -/
theorem IsOperator.meets_operate {op : Bytes} (hop : IsOperator op) (left right : Expr)
    (x y : Int64) {m : Memory} {s : State} (h : m.Tracks s) :
    Run.Meets (Run.operate op left right (.int x) (.int y)) s
      (joinWords op x y >>= fun w => some (w, m)) MeetsWord := by
  have happly := Run.operate_apply op left right (.int x) (.int y) s
  rw [hop.applySymbol_int] at happly
  cases hjoin : joinWords op x y with
  | none =>
    rw [hjoin] at happly
    exact ⟨_, s, happly, rfl⟩
  | some w =>
    rw [hjoin] at happly
    exact ⟨_, s, happly, rfl, h⟩

/-- Evaluating an expression does what the expression does on words. -/
theorem Expr.meets_onWords : (e : Expr) → {m : Memory} → {s : State} → m.Tracks s →
    (∀ n, e.Evaluates s n → n.Integral) → Run.Meets e.eval s (e.onWords m) MeetsWord
  | .hole, _, _, h, _ => .of_ok rfl ⟨rfl, h.warn _⟩
  | .const (.number (.int _)), _, _, h, _ => .of_ok rfl ⟨rfl, h⟩
  | .const (.number (.float _)), _, _, _, hint => (hint _ .self).elim
  | .const (.string _), _, _, h, _ => .of_ok rfl ⟨rfl, h.warn _⟩
  | .const (.other _ _), _, _, h, _ => .of_ok rfl ⟨rfl, h.warn _⟩
  | .var name, _, _, h, _ => .of_ok rfl ⟨h.lookup name, h⟩
  | .binary op left right, m, s, h, hint => by
    rw [Expr.eval_binary, Expr.onWords]
    refine (left.meets_onWords h fun n hn => hint n (.left hn)).bind ?_
    rintro _ t ⟨x, m'⟩ hleft ⟨rfl, h'⟩
    -- The right operand counts as evaluated only because the left one has a value.
    refine (right.meets_onWords h' fun n hn => hint n (.right hleft hn)).bind ?_
    rintro _ u ⟨y, m''⟩ - ⟨rfl, h''⟩
    have hop : IsOperator op := hint _ .self
    exact hop.meets_operate left right x y h''
  | .assign op target value, m, s, h, hint => by
    cases target with
    | var name =>
      rw [Expr.eval, Expr.onWords]
      refine ((value.meets_onWords h fun n hn => hint n (.value hn)).within _).bind ?_
      rintro _ t ⟨w, m'⟩ - ⟨rfl, h'⟩
      exact .of_ok rfl (h'.assign name w)
    | _ => exact .of_ok rfl ⟨rfl, h.warn _⟩
  | .call name args, _, _, h, _ => .of_ok rfl ⟨rfl, h.call name args⟩

/-- Running a declaration does what it does on words. -/
theorem Node.meets_decl (type name : Bytes) (init : Expr) {m : Memory} {s : State}
    (h : m.Tracks s) (hint : ∀ n, (Node.decl type name init).Evaluates s n → n.Integral) :
    Run.Meets (Node.decl type name init).exec s ((Node.decl type name init).onWords m)
      fun _ t m' => m'.Tracks t := by
  have htype : ¬ Value.isFloating type := by
    obtain ⟨hfloat, hdouble⟩ : type ≠ "float" ∧ type ≠ "double" := hint _ .self
    simp [Value.isFloating, hfloat, hdouble]
  by_cases hinit : init = .hole
  · subst hinit
    -- An integer variable without a value is one that is declared as zero.
    have hzero : (s.store.declareZero name type).2 = (s.store.declare name type (.int 0)).2 := by
      rw [Store.declare, Value.coerce_int htype]
      rfl
    refine .of_ok rfl (?_ : (m.write name 0).Tracks _)
    rw [hzero]
    exact h.declare name htype 0
  · rw [Node.exec, Node.onWords]
    · refine ((init.meets_onWords h fun n hn => hint n (.init hinit hn)).within _).bind ?_
      rintro _ t ⟨w, m'⟩ - ⟨rfl, h'⟩
      exact .of_ok rfl (h'.declare name htype w)
    · exact hinit

/-- Running a return does what it does on words. -/
theorem Node.meets_ret (value : Expr) {m : Memory} {s : State}
    (h : m.Tracks s) (hint : ∀ n, (Node.ret value).Evaluates s n → n.Integral) :
    Run.Meets (Node.ret value).exec s ((Node.ret value).onWords m) fun _ t m' => m'.Tracks t := by
  by_cases hvalue : value = .hole
  · subst hvalue
    exact .of_ok rfl (h.leave 0)
  · rw [Node.exec, Node.onWords]
    · refine (value.meets_onWords h fun n hn => hint n (.value hvalue hn)).bind ?_
      rintro _ t ⟨w, m'⟩ - ⟨rfl, h'⟩
      exact .of_ok rfl (h'.leave w)
    · exact hvalue

mutual

/-- Running a node does what the node does on words. -/
theorem Node.meets_onWords : (n : Node) → {m : Memory} → {s : State} → m.Tracks s →
    (∀ k, n.Evaluates s k → k.Integral) →
      Run.Meets n.exec s (n.onWords m) fun _ t m' => m'.Tracks t
  | .program decls, _, _, h, hint => by
    rw [Node.exec, Node.onWords]
    exact Node.meets_onWordsAll decls h fun k hk => hint k (.program hk)
  | .prototype _ _ _, _, _, h, _ => .of_ok rfl h
  | .function type name params items, m, s, h, hint => by
    rw [Node.exec, Node.onWords]
    by_cases hname : name = mainFunction
    · subst hname
      exact (Node.meets_onWordsAll items h fun k hk => hint k (.function hk)).within _
    · rw [if_neg hname, if_neg (show name ≠ "main" from hname)]
      exact .of_ok rfl h
  | .block items, _, _, h, hint => by
    rw [Node.exec, Node.onWords]
    exact Node.meets_onWordsAll items h fun k hk => hint k (.block hk)
  | .decl type name init, _, _, h, hint => Node.meets_decl type name init h hint
  | .ret value, _, _, h, hint => Node.meets_ret value h hint
  | .expr e, _, _, h, hint => by
    rw [Node.exec, Node.onWords]
    refine (e.meets_onWords h fun k hk => hint k (.expr hk)).bind ?_
    rintro _ t ⟨w, m'⟩ - ⟨-, h'⟩
    exact .of_ok rfl h'

/-- Running nodes in order does what they do on words, one after the other. -/
theorem Node.meets_onWordsAll : (ns : List Node) → {m : Memory} → {s : State} → m.Tracks s →
    (∀ k, Node.EvaluatesAll ns s k → k.Integral) →
      Run.Meets (Node.execAll ns) s (Node.onWordsAll ns m) fun _ t m' => m'.Tracks t
  | [], _, _, h, _ => .of_ok rfl h
  | n :: rest, _, _, h, hint => by
    rw [Node.execAll, Node.onWordsAll]
    refine (n.meets_onWords h fun k hk => hint k (.head hk)).bind ?_
    intro _ t m' hexec h'
    exact Node.meets_onWordsAll rest h' fun k hk => hint k (.tail hexec hk)

end

/-! ## Integral walks -/

theorem Expr.mem_walk (e : Expr) : Node.expr e ∈ e.walk := by
  fun_cases Expr.walk e <;> simp

/-- What evaluating an expression evaluates is in its walk. -/
theorem Expr.Evaluates.mem_walk {e : Expr} {s : State} {n : Node} (h : e.Evaluates s n) :
    n ∈ e.walk := by
  induction h with
  | self => exact Expr.mem_walk _
  | left _ ih => simp [Expr.walk, ih]
  | right _ _ ih => simp [Expr.walk, ih]
  | value _ ih => simp [Expr.walk, ih]

theorem Node.integral_self {m : Node} (h : ∀ k ∈ m.walk, k.Integral) : m.Integral := by
  cases m with
  | decl type name init => exact h _ (List.mem_append_right _ List.mem_cons_self)
  | expr e => exact h _ e.mem_walk
  | _ => exact trivial

mutual

/-- A run evaluates integral nodes only if the walk of the tree has no others. -/
theorem Node.Evaluates.integral {m : Node} {s : State} {n : Node} :
    m.Evaluates s n → (∀ k ∈ m.walk, k.Integral) → n.Integral
  | .self, h => Node.integral_self h
  | .program hn, h => hn.integral fun k hk => h k (List.mem_append_left _ hk)
  | .function hn, h => hn.integral fun k hk => h k (by simp [Node.walk, hk])
  | .block hn, h => hn.integral fun k hk => h k (List.mem_append_left _ hk)
  | .init hne hn, h => h n (by simp [Node.walk, Expr.optionalWalk_of_ne hne, hn.mem_walk])
  | .value hne hn, h => h n (by simp [Node.walk, Expr.optionalWalk_of_ne hne, hn.mem_walk])
  | .expr hn, h => h n hn.mem_walk

theorem Node.EvaluatesAll.integral {ms : List Node} {s : State} {n : Node} :
    Node.EvaluatesAll ms s n → (∀ k ∈ Node.walkAll ms, k.Integral) → n.Integral
  | .head hn, h => hn.integral fun k hk => h k (List.mem_append_left _ hk)
  | .tail _ hn, h => hn.integral fun k hk => h k (List.mem_append_right _ hk)

end

/-- If a run evaluates integral nodes only, it divides by zero exactly if the program over words
does, and otherwise comes to its end in a state that the memory of that program describes. -/
theorem Program.describes_run (p : Program)
    (hint : ∀ n, p.node.Evaluates .initial n → n.Integral) :
    ((∃ f, p.run.failure = some f ∧ f.cause = .divisionByZero) ↔ p.onWords = none) ∧
      ∀ m, p.onWords = some m → p.run.failure = none ∧ m.Describes p.run.state := by
  have hmeets : Run.Meets p.node.exec .initial p.onWords fun _ t m => m.Tracks t :=
    p.node.meets_onWords .blank hint
  unfold Program.run Node.run
  cases hwords : p.onWords with
  | none =>
    rw [hwords] at hmeets
    obtain ⟨f, t, herror, hcause⟩ := hmeets
    rw [herror]
    exact ⟨⟨fun _ => rfl, fun _ => ⟨f, rfl, hcause⟩⟩, nofun⟩
  | some m =>
    rw [hwords] at hmeets
    obtain ⟨_, t, hok, htracks⟩ := hmeets
    rw [hok]
    constructor
    · constructor
      · rintro ⟨f, hf, -⟩
        cases hf
      · nofun
    · rintro _ ⟨⟩
      exact ⟨rfl, htracks.toDescribes⟩

/-- A program that prints a quotient as a floating number and returns a condition, and one that
divides by a string before it comes to a floating variable. -/
theorem Program.describes_run_quotient :
    let printed : Program := ⟨[.function "int" "main" []
      [.decl "int" "x" (.binary "/" (.const (.number (.int (-7)))) (.const (.number (.int 2)))),
        .expr (.call "printf" [.const (.string "%lf"), .var "x"]),
        .ret (.binary "<" (.var "x") (.var "y"))]]⟩
    let divided : Program := ⟨[.function "int" "main" []
      [.expr (.binary "%" (.var "x") (.const (.string "s"))), .decl "float" "y" .hole]]⟩
    (∃ m, printed.onWords = some m ∧ m.read "x" = -3 ∧ m.exit = some 1 ∧
      printed.run.failure = none ∧ m.Describes printed.run.state) ∧
      divided.onWords = none ∧
        ∃ f, divided.run.failure = some f ∧ f.cause = .divisionByZero := by
  intro printed divided
  have hprinted : ∀ n, printed.node.Evaluates .initial n → n.Integral := by
    have hquotient : IsOperator "/" := ⟨1, "/", by decide, rfl⟩
    have hless : IsOperator "<" := ⟨3, "<", by decide, rfl⟩
    intro n hn
    apply hn.integral
    simp +decide [printed, Program.node, Node.walk, Node.walkAll, Expr.walk, Expr.optionalWalk,
      Node.Integral, hquotient, hless]
  have hdivided : ∀ n, divided.node.Evaluates .initial n → n.Integral := by
    have hremainder : IsOperator "%" := ⟨1, "%", by decide, rfl⟩
    intro n hn
    cases hn with
    | self => exact trivial
    | program hn =>
      cases hn with
      | head hn =>
        cases hn with
        | self => exact trivial
        | function hn =>
          cases hn with
          | head hn =>
            apply hn.integral
            simp [Node.walk, Expr.walk, Node.Integral, hremainder]
          | tail hexec _ => cases hexec
      | tail _ hn => cases hn
  have hwords : printed.onWords = some _ := rfl
  have hfails : divided.onWords = none := rfl
  refine ⟨⟨_, hwords, ?_, ?_, (Program.describes_run printed hprinted).2 _ hwords⟩, hfails,
    (Program.describes_run divided hdivided).1.mpr hfails⟩
  · decide
  · decide

end MiniC
