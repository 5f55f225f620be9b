import MiniC.Proofs.Parse.Soundness
import MiniC.Proofs.Run.Footprint

/-!
# Trees that can be run

The grammar builds trees of a certain shape: functions without parameters, with
declarations, returns and expressions as their items, in which nothing is left
out but initializers and returned values, and every operator is one of the
language. The run of such a tree can only fail by dividing by zero, and never
comes upon an expression that it has no rule for.
-/

namespace MiniC

open Text

/-- The sign of an operator of some rank. -/
def IsOperator (op : Bytes) : Prop := ∃ rank, ∃ sign ∈ Grammar.signs rank, op = sign

/-- An expression with nothing left out, whose constants and operators are those of the
language. -/
inductive Expr.WellBuilt : Expr → Prop
  | number (v : Value) : WellBuilt (.const (.number v))
  | string (s : Bytes) : WellBuilt (.const (.string s))
  | var (name : Bytes) : WellBuilt (.var name)
  | binary {op : Bytes} {left right : Expr} :
    IsOperator op → WellBuilt left → WellBuilt right → WellBuilt (.binary op left right)
  | assign {op : Bytes} {target value : Expr} :
    WellBuilt target → WellBuilt value → WellBuilt (.assign op target value)
  | call {name : Bytes} {args : List Expr} :
    (∀ arg ∈ args, WellBuilt arg) → WellBuilt (.call name args)

/-- A declaration, a return or an expression, of which at most an initializer or a returned value
is missing. -/
inductive Node.WellBuiltItem : Node → Prop
  | decl {type name : Bytes} {init : Expr} :
    init = .hole ∨ init.WellBuilt → WellBuiltItem (.decl type name init)
  | ret {value : Expr} : value = .hole ∨ value.WellBuilt → WellBuiltItem (.ret value)
  | expr {e : Expr} : e.WellBuilt → WellBuiltItem (.expr e)

/-- A function with a body and without parameters, whose items are well built. -/
inductive Node.WellBuiltFunction : Node → Prop
  | intro {type name : Bytes} {items : List Node} :
    (∀ n ∈ items, n.WellBuiltItem) → WellBuiltFunction (.function type name [] items)

/-- All declarations are well built functions. -/
def Program.WellBuilt (p : Program) : Prop := ∀ d ∈ p.decls, d.WellBuiltFunction

namespace Grammar

mutual

theorem Expression.wellBuilt {ts : List Token} {e : Expr} : Expression ts e → e.WellBuilt
  | .operation h => h.wellBuilt
  | .assignment hl _ hr => .assign hl.wellBuilt hr.wellBuilt

theorem Operation.wellBuilt {rank : Nat} {ts : List Token} {e : Expr} :
    Operation rank ts e → e.WellBuilt
  | .primary h => h.wellBuilt
  | .chain h hl => hl.wellBuilt h.wellBuilt

theorem Links.wellBuilt {rank : Nat} {ts : List Token} {left e : Expr} :
    Links rank left ts e → left.WellBuilt → e.WellBuilt
  | .nil, hleft => hleft
  | .cons hj hr hl, hleft => hl.wellBuilt (.binary ⟨rank, hj.2⟩ hleft hr.wellBuilt)

theorem Primary.wellBuilt {ts : List Token} {e : Expr} : Primary ts e → e.WellBuilt
  | .number _ => .number _
  | .string _ => .string _
  | .name _ => .var _
  | .call _ _ h _ => .call h.wellBuilt
  | .bracket _ h _ => h.wellBuilt

theorem Arguments.wellBuilt {ts : List Token} {args : List Expr} :
    Arguments ts args → ∀ arg ∈ args, arg.WellBuilt
  | .none => by simp
  | .some h => h.wellBuilt

theorem ArgumentList.wellBuilt {ts : List Token} {args : List Expr} :
    ArgumentList ts args → ∀ arg ∈ args, arg.WellBuilt
  | .last h => List.forall_mem_singleton.mpr h.wellBuilt
  | .more h _ hs => List.forall_mem_cons.mpr ⟨h.wellBuilt, hs.wellBuilt⟩

end

theorem Item.wellBuilt {ts : List Token} {n : Node} (h : Item ts n) : n.WellBuiltItem := by
  cases h with
  | declaration h =>
    cases h with
    | plain => exact .decl (.inl rfl)
    | initialized _ _ _ hinit => exact .decl (.inr hinit.wellBuilt)
  | statement h =>
    cases h with
    | bareReturn => exact .ret (.inl rfl)
    | valueReturn _ hvalue => exact .ret (.inr hvalue.wellBuilt)
    | expression he => exact .expr he.wellBuilt

theorem Items.wellBuilt {ts : List Token} {ns : List Node} (h : Items ts ns) :
    ∀ n ∈ ns, n.WellBuiltItem := by
  induction h with
  | nil => simp
  | cons hitem _ ih => exact List.forall_mem_cons.mpr ⟨hitem.wellBuilt, ih⟩

theorem Function.wellBuilt {ts : List Token} {f : Node} (h : Function ts f) :
    f.WellBuiltFunction := by
  cases h with
  | intro _ _ _ _ _ _ hitems _ => exact .intro hitems.wellBuilt

theorem Functions.wellBuilt {ts : List Token} {fs : List Node} (h : Functions ts fs) :
    ∀ f ∈ fs, f.WellBuiltFunction := by
  induction h with
  | nil => simp
  | skip _ _ ih => exact ih
  | cons hf _ ih => exact List.forall_mem_cons.mpr ⟨hf.wellBuilt, ih⟩

end Grammar

/-- Every program that is read from tokens is well built. -/
theorem Program.wellBuilt_of_parse {tokens : List Token} {source : Bytes} {p : Program}
    (h : parse tokens source = .ok p) : p.WellBuilt :=
  (Parse.parse_eq_ok_iff.mp h).wellBuilt

/-! ## Running well built trees -/

/-- The evaluator implements every operator of the language. -/
theorem IsOperator.exists_ofSymbol? {op : Bytes} (h : IsOperator op) :
    ∃ o, Operator.ofSymbol? op = some o := by
  obtain ⟨rank, sign, hsign, rfl⟩ := h
  have hjoins : Grammar.Joins rank { kind := .operator, lexeme := sign, line := 0 } :=
    ⟨rfl, sign, hsign, rfl⟩
  have hrank := Parse.operatorRank?_eq_some_iff.mpr hjoins
  rw [Parse.operatorRank?, if_pos rfl, Option.map_eq_some_iff] at hrank
  obtain ⟨o, ho, -⟩ := hrank
  exact ⟨o, ho⟩

/-- Operators fail by division by zero alone. -/
theorem Operator.eq_divisionByZero {o : Operator} {x y : Value} {cause : Cause}
    (h : o.apply x y = .error cause) : cause = .divisionByZero := by
  cases o with
  | div | rem =>
    simp only [Operator.apply, Operator.divide] at h
    split at h
    · cases h
      rfl
    · cases h
  | _ => cases h

theorem IsOperator.eq_divisionByZero {op : Bytes} {x y : Value} {cause : Cause}
    (hop : IsOperator op) (h : applySymbol op x y = .error cause) : cause = .divisionByZero := by
  obtain ⟨o, ho⟩ := hop.exists_ofSymbol?
  rw [applySymbol, ho] at h
  exact Operator.eq_divisionByZero h

/-- The evaluator has a rule for a node: nothing is left out, and an operator is one of the
language. -/
def Node.HasRule : Node → Prop
  | .expr .hole => False
  | .expr (.binary op _ _) => IsOperator op
  | _ => True

/-- There is a rule for all nodes that evaluating a well built expression evaluates. -/
theorem Expr.WellBuilt.hasRule {e : Expr} (h : e.WellBuilt) : ∀ n ∈ e.walk, n.HasRule := by
  induction h with
  | binary hop _ _ ihl ihr =>
    simp only [Expr.walk, List.forall_mem_append, List.forall_mem_singleton]
    exact ⟨⟨ihl, ihr⟩, hop⟩
  | @assign op target value _ _ _ ihv =>
    cases target with
    | var name =>
      simp only [Expr.walk, List.forall_mem_append, List.forall_mem_singleton]
      exact ⟨ihv, trivial⟩
    | _ => exact List.forall_mem_singleton.mpr trivial
  | _ => exact List.forall_mem_singleton.mpr trivial

theorem Expr.hasRule_optionalWalk {e : Expr} (h : e = .hole ∨ e.WellBuilt) :
    ∀ n ∈ e.optionalWalk, n.HasRule := by
  rcases h with rfl | h
  · exact List.forall_mem_nil _
  · have hne : e ≠ .hole := by
      rintro rfl
      cases h
    rw [Expr.optionalWalk_of_ne hne]
    exact h.hasRule

theorem Node.WellBuiltItem.hasRule {m : Node} (h : m.WellBuiltItem) :
    ∀ n ∈ m.walk, n.HasRule := by
  cases h with
  | decl h =>
    simp only [Node.walk, List.forall_mem_append, List.forall_mem_singleton]
    exact ⟨Expr.hasRule_optionalWalk h, trivial⟩
  | ret h =>
    simp only [Node.walk, List.forall_mem_append, List.forall_mem_singleton]
    exact ⟨Expr.hasRule_optionalWalk h, trivial⟩
  | expr h => exact h.hasRule

theorem Node.forall_mem_walkAll {motive : Node → Prop} {ms : List Node} :
    (∀ n ∈ Node.walkAll ms, motive n) ↔ ∀ m ∈ ms, ∀ n ∈ m.walk, motive n := by
  induction ms with
  | nil => simp [Node.walkAll]
  | cons m rest ih => rw [Node.walkAll, List.forall_mem_append, List.forall_mem_cons, ih]

theorem Node.WellBuiltFunction.hasRule {m : Node} (h : m.WellBuiltFunction) :
    ∀ n ∈ m.walk, n.HasRule := by
  cases h with
  | intro hitems =>
    rw [Node.walk]
    split
    · rw [List.forall_mem_append, List.forall_mem_singleton, Node.forall_mem_walkAll]
      exact ⟨fun m hm => (hitems m hm).hasRule, trivial⟩
    · exact List.forall_mem_nil _

theorem Program.WellBuilt.hasRule {p : Program} (h : p.WellBuilt) :
    ∀ n ∈ p.node.walk, n.HasRule := by
  rw [Program.node, Node.walk, List.forall_mem_append, List.forall_mem_singleton,
    Node.forall_mem_walkAll]
  exact ⟨fun d hd => (h d hd).hasRule, trivial⟩

/-- A well built program fails only by dividing by zero. -/
theorem Program.WellBuilt.cause_eq {p : Program} {f : Failure} (h : p.WellBuilt)
    (hf : p.run.failure = some f) : f.cause = .divisionByZero := by
  obtain ⟨⟨op, left, right, x, y, hoperation, happly⟩, before, after, hwalk, -⟩ :=
    Program.steps_of_failure hf
  have hmem : Node.expr (.binary op left right) ∈ p.node.walk := by
    rw [hwalk, ← hoperation]
    exact List.mem_append_right before List.mem_cons_self
  have hop : IsOperator op := h.hasRule _ hmem
  exact hop.eq_divisionByZero happly

/-- A well built program comes upon nothing that it has no rule for. -/
theorem Program.WellBuilt.noRule_not_mem {p : Program} (h : p.WellBuilt) :
    Warning.noRule ∉ p.run.state.warnings := by
  intro hwarning
  obtain ⟨n, hn, hraises⟩ :=
    List.mem_filterMap.mp (p.warnings_isPrefix.subset hwarning)
  obtain rfl := Node.eq_hole_of_warning? hraises
  exact h.hasRule _ hn

/-- Whatever tokens are read as a program, the program is well built, and the evaluator implements
the operators it may hold. The run of a compiled program comes to its end or divides by zero, and
there is a rule for all it comes upon. -/
theorem Program.run_of_compile :
    (∀ tokens source p, parse tokens source = .ok p → p.WellBuilt) ∧
      (∀ op, IsOperator op → ∀ x y cause, applySymbol op x y = .error cause →
        cause = .divisionByZero) ∧
      ∀ source p, compile source = .ok p →
        (p.run.failure = none ∨ ∃ f, p.run.failure = some f ∧ f.cause = .divisionByZero) ∧
          Warning.noRule ∉ p.run.state.warnings := by
  refine ⟨fun _ _ _ => Program.wellBuilt_of_parse, fun _ hop _ _ _ => hop.eq_divisionByZero, ?_⟩
  intro source p h
  have hbuilt : p.WellBuilt := Program.wellBuilt_of_parse h
  refine ⟨?_, hbuilt.noRule_not_mem⟩
  cases hfailure : p.run.failure with
  | none => exact .inl rfl
  | some f => exact .inr ⟨f, rfl, hbuilt.cause_eq hfailure⟩

/-- A source with a remainder by zero, and its program. -/
theorem compile_remainder :
    compile "int main(){1%0;}" = .ok ⟨[.function "int" "main" []
      [.expr (.binary "%" (.const (.number (.int 1))) (.const (.number (.int 0))))]]⟩ := by
  let sign (k : Kind) (lexeme : String) : Token := { kind := k, lexeme, line := 1 }
  let digit (lexeme : String) (i : Int64) : Token :=
    { kind := .number, lexeme, line := 1, value := .int i }
  have hchars : chars "int main(){1%0;}" = ['i', 'n', 't', ' ', 'm', 'a', 'i', 'n', '(', ')',
      '\x7b', '1', '%', '0', ';', '\x7d'] := by decide
  have hsplit : Element.split (chars "int main(){1%0;}") =
      [.word ['i', 'n', 't'], .blank ' ', .word ['m', 'a', 'i', 'n'], .punct '(', .punct ')',
        .punct '\x7b', .number ['1'] none, .operator '%' false, .number ['0'] none, .punct ';',
        .punct '\x7d'] := by
    rw [hchars]
    simp +decide [Element.split, Element.first, Element.fraction?]
  have htokens : beforeEnd (lex "int main(){1%0;}").tokens =
      [sign .type "int", sign .identifier "main", sign .punct "(", sign .punct ")",
        sign .punct "\x7b", digit "1" 1, sign .operator "%", digit "0" 0, sign .punct ";",
        sign .punct "\x7d"] := by
    rw [lex, lexChars, hsplit, hchars]
    decide
  have hexpression : Grammar.Expression [digit "1" 1, sign .operator "%", digit "0" 0]
      (.binary "%" (.const (.number (.int 1))) (.const (.number (.int 0)))) := by
    have hleft : Grammar.Operation 2 [digit "1" 1] (.const (.number (.int 1))) :=
      (Grammar.Operation.primary (.number rfl)).mono (Nat.zero_le 2)
    have hright : Grammar.Operation 1 [digit "0" 0] (.const (.number (.int 0))) :=
      (Grammar.Operation.primary (.number rfl)).mono (Nat.zero_le 1)
    have hjoins : Grammar.Joins 1 (sign .operator "%") := ⟨rfl, "%", by decide, rfl⟩
    exact .operation ((hleft.snoc hjoins hright).mono (by decide))
  have hitems := Grammar.Items.cons
    (.statement (.expression hexpression (show (sign .punct ";").is .punct ";" by decide))) .nil
  have hmain := @Grammar.Function.intro (sign .type "int") (sign .identifier "main")
    (sign .punct "(") (sign .punct ")") (sign .punct "\x7b") (sign .punct "\x7d") _ _ _ rfl rfl
    (by decide) .none (by decide) (by decide) hitems (by decide)
  rw [compile, Parse.parse_eq_ok_iff, htokens]
  exact .cons hmain .nil

/-- A compiled program that takes a remainder by zero, and the operator it fails at. -/
theorem Program.run_of_compile_remainder :
    ∃ p, compile "int main(){1%0;}" = .ok p ∧ p.WellBuilt ∧
      (∃ cause, applySymbol "%" (.int 1) (.int 0) = .error cause ∧ cause = .divisionByZero) ∧
        (∃ f, p.run.failure = some f ∧ f.cause = .divisionByZero) ∧
          Warning.noRule ∉ p.run.state.warnings := by
  obtain ⟨hbuilt, hoperator, hrun⟩ := Program.run_of_compile
  have hremainder : IsOperator "%" := ⟨1, "%", by decide, rfl⟩
  have hfails : applySymbol "%" (.int 1) (.int 0) = .error .divisionByZero := rfl
  obtain ⟨hends, hrule⟩ := hrun _ _ compile_remainder
  exact ⟨_, compile_remainder, hbuilt _ _ _ compile_remainder,
    ⟨_, hfails, hoperator _ hremainder _ _ _ hfails⟩, hends.resolve_left nofun, hrule⟩

end MiniC
