import MiniC.Parse.Program

/-!
# The grammar of programs

Which token lists are expressions, declarations, statements, functions and
programs, and which trees they stand for, said without reference to how they
are read. Expressions are stratified by the ranks of their operators, so an
operation of a looser rank is a chain of operations of the next tighter rank,
folded to the left; assignments group to the right.
-/

namespace MiniC

namespace Token

variable {t : Token} {k k' : Kind} {lexeme lexeme' : Text.Bytes}

theorem kind_of_is (h : t.is k lexeme = true) : t.kind = k := by
  simp only [is, Bool.and_eq_true, decide_eq_true_eq] at h
  exact h.1

theorem lexeme_of_is (h : t.is k lexeme = true) : t.lexeme = lexeme := by
  simp only [is, Bool.and_eq_true, decide_eq_true_eq] at h
  exact h.2

theorem is_of_kind_ne (h : t.kind ≠ k) : t.is k lexeme = false := by
  simp [is, h]

theorem is_of_is (h : t.is k lexeme = true) (hl : lexeme ≠ lexeme') : t.is k' lexeme' = false := by
  simp [is, lexeme_of_is h, hl]

end Token

namespace Grammar

/-- The signs of the operators of each rank, from the tightest to the loosest. -/
def signs : Nat → List String
  | 0 => ["&", "|", "^"]
  | 1 => ["*", "/", "%"]
  | 2 => ["+", "-"]
  | 3 => ["<", ">", "<=", ">=", "==", "!="]
  | _ => []

/-- A token that joins operands at a rank. -/
def Joins (rank : Nat) (t : Token) : Prop :=
  t.kind = .operator ∧ ∃ sign ∈ signs rank, t.lexeme = sign

mutual

/-- An operation over all ranks, possibly assigned the value of a further expression. -/
inductive Expression : List Token → Expr → Prop
  | operation {ts : List Token} {e : Expr} : Operation Operator.ranks ts e → Expression ts e
  | assignment {ts us : List Token} {equals : Token} {left right : Expr} :
    Operation Operator.ranks ts left → equals.is .operator "=" → Expression us right →
      Expression (ts ++ equals :: us) (.assign "=" left right)

/-- An operation with operators of rank below a bound: a chain at the loosest of these ranks. -/
inductive Operation : Nat → List Token → Expr → Prop
  | primary {ts : List Token} {e : Expr} : Primary ts e → Operation 0 ts e
  | chain {rank : Nat} {ts us : List Token} {first e : Expr} :
    Operation rank ts first → Links rank first us e → Operation (rank + 1) (ts ++ us) e

/-- Any number of operators of one rank, each with a right operand of tighter rank, folded to
the left onto a first operand. -/
inductive Links : Nat → Expr → List Token → Expr → Prop
  | nil {rank : Nat} {left : Expr} : Links rank left [] left
  | cons {rank : Nat} {sign : Token} {ts us : List Token} {left right e : Expr} :
    Joins rank sign → Operation rank ts right →
      Links rank (.binary sign.lexeme left right) us e → Links rank left (sign :: (ts ++ us)) e

/-- A literal, a variable, a call or a bracketed expression. -/
inductive Primary : List Token → Expr → Prop
  | number {t : Token} : t.kind = .number → Primary [t] (.const (.number t.value))
  | string {t : Token} : t.kind = .string → Primary [t] (.const (.string t.lexeme))
  | name {t : Token} : t.kind = .identifier → Primary [t] (.var t.lexeme)
  | call {t opening closing : Token} {ts : List Token} {args : List Expr} :
    t.kind = .identifier → opening.is .punct "(" → Arguments ts args → closing.is .punct ")" →
      Primary (t :: opening :: (ts ++ [closing])) (.call t.lexeme args)
  | bracket {opening closing : Token} {ts : List Token} {e : Expr} :
    opening.is .punct "(" → Expression ts e → closing.is .punct ")" →
      Primary (opening :: (ts ++ [closing])) e

/-- No argument, or some. -/
inductive Arguments : List Token → List Expr → Prop
  | none : Arguments [] []
  | some {ts : List Token} {args : List Expr} : ArgumentList ts args → Arguments ts args

/-- One or more arguments, separated by commas. -/
inductive ArgumentList : List Token → List Expr → Prop
  | last {ts : List Token} {arg : Expr} : Expression ts arg → ArgumentList ts [arg]
  | more {ts us : List Token} {comma : Token} {arg : Expr} {args : List Expr} :
    Expression ts arg → comma.is .punct "," → ArgumentList us args →
      ArgumentList (ts ++ comma :: us) (arg :: args)

end

/-- A declaration, with or without an initializer. -/
inductive Declaration : List Token → Node → Prop
  | plain {type name semicolon : Token} :
    type.kind = .type → name.kind = .identifier → semicolon.is .punct ";" →
      Declaration [type, name, semicolon] (.decl type.lexeme name.lexeme .hole)
  | initialized {type name equals semicolon : Token} {ts : List Token} {init : Expr} :
    type.kind = .type → name.kind = .identifier → equals.is .operator "=" →
      Expression ts init → semicolon.is .punct ";" →
        Declaration (type :: name :: equals :: (ts ++ [semicolon]))
          (.decl type.lexeme name.lexeme init)

/-- A return, with or without a value, or an expression. -/
inductive Statement : List Token → Node → Prop
  | bareReturn {word semicolon : Token} :
    word.is .keyword "return" → semicolon.is .punct ";" →
      Statement [word, semicolon] (.ret .hole)
  | valueReturn {word semicolon : Token} {ts : List Token} {value : Expr} :
    word.is .keyword "return" → Expression ts value → semicolon.is .punct ";" →
      Statement (word :: (ts ++ [semicolon])) (.ret value)
  | expression {semicolon : Token} {ts : List Token} {e : Expr} :
    Expression ts e → semicolon.is .punct ";" → Statement (ts ++ [semicolon]) (.expr e)

/-- A declaration or a statement. -/
inductive Item : List Token → Node → Prop
  | declaration {ts : List Token} {n : Node} : Declaration ts n → Item ts n
  | statement {ts : List Token} {n : Node} : Statement ts n → Item ts n

/-- Any number of items. -/
inductive Items : List Token → List Node → Prop
  | nil : Items [] []
  | cons {ts us : List Token} {n : Node} {ns : List Node} :
    Item ts n → Items us ns → Items (ts ++ us) (n :: ns)

/-- An empty parameter list, in which `void` may stand. -/
inductive Parameters : List Token → Prop
  | none : Parameters []
  | void {t : Token} : t.is .type "void" → Parameters [t]

/-- A function with its items between braces. -/
inductive Function : List Token → Node → Prop
  | intro {type name opening closing open' close' : Token} {ps ts : List Token}
      {items : List Node} :
    type.kind = .type → name.kind = .identifier → opening.is .punct "(" → Parameters ps →
      closing.is .punct ")" → open'.is .punct "\x7b" → Items ts items →
        close'.is .punct "\x7d" →
          Function (type :: name :: opening :: (ps ++ closing :: open' :: (ts ++ [close'])))
            (.function type.lexeme name.lexeme [] items)

/-- Functions, with single tokens that name no type between them, which stand for nothing. -/
inductive Functions : List Token → List Node → Prop
  | nil : Functions [] []
  | cons {ts us : List Token} {f : Node} {fs : List Node} :
    Function ts f → Functions us fs → Functions (ts ++ us) (f :: fs)
  | skip {t : Token} {us : List Token} {fs : List Node} :
    t.kind ≠ .type → Functions us fs → Functions (t :: us) fs

/-- Looser ranks only add operations. -/
theorem Operation.mono {rank bound : Nat} {ts : List Token} {e : Expr}
    (h : Operation rank ts e) (hr : rank ≤ bound) : Operation bound ts e := by
  induction hr with
  | refl => exact h
  | step _ ih => simpa using Operation.chain ih Links.nil

/-- A chain grows at its end. -/
theorem Links.snoc {rank : Nat} {us ts : List Token} {sign : Token} {left e right : Expr} :
    Links rank left us e → Joins rank sign → Operation rank ts right →
      Links rank left (us ++ sign :: ts) (.binary sign.lexeme e right)
  | .nil, hs, hr => by simpa using Links.cons hs hr .nil
  | .cons hj ho hl, hs, hr => by simpa using Links.cons hj ho (hl.snoc hs hr)

/-- An operation is the left operand of an operator of the loosest rank it may hold. -/
theorem Operation.snoc {rank : Nat} {ts us : List Token} {sign : Token} {left right : Expr}
    (hl : Operation (rank + 1) ts left) (hs : Joins rank sign) (hr : Operation rank us right) :
    Operation (rank + 1) (ts ++ sign :: us) (.binary sign.lexeme left right) := by
  cases hl with
  | chain hf hc =>
    rw [List.append_assoc]
    exact .chain hf (hc.snoc hs hr)

/-- The tokens that an expression can start with. -/
def Starts (t : Token) : Prop :=
  t.kind = .number ∨ t.kind = .string ∨ t.kind = .identifier ∨ t.is .punct "("

/-- An expression starts with no word, and with no sign but an opening bracket. -/
theorem Starts.is_eq_false {t : Token} {k : Kind} {lexeme : Text.Bytes} (h : Starts t)
    (hk : k = .punct ∨ k = .keyword) (hl : lexeme ≠ "(") : t.is k lexeme = false := by
  rcases h with h | h | h | h
  · exact Token.is_of_kind_ne (by rcases hk with rfl | rfl <;> simp [h])
  · exact Token.is_of_kind_ne (by rcases hk with rfl | rfl <;> simp [h])
  · exact Token.is_of_kind_ne (by rcases hk with rfl | rfl <;> simp [h])
  · exact Token.is_of_is h hl.symm

theorem Starts.kind_ne {t : Token} {k : Kind} (h : Starts t)
    (hk : k ∉ [.number, .string, .identifier, .punct]) : t.kind ≠ k := by
  rintro rfl
  rcases h with h | h | h | h
  · simp [h] at hk
  · simp [h] at hk
  · simp [h] at hk
  · simp [Token.kind_of_is h] at hk

mutual

theorem Expression.starts {ts : List Token} {e : Expr} :
    Expression ts e → ∃ t us, ts = t :: us ∧ Starts t
  | .operation h => h.starts
  | .assignment h _ _ => by
    obtain ⟨t, us, rfl, ht⟩ := h.starts
    exact ⟨t, _, List.cons_append, ht⟩

theorem Operation.starts {rank : Nat} {ts : List Token} {e : Expr} :
    Operation rank ts e → ∃ t us, ts = t :: us ∧ Starts t
  | .primary h => h.starts
  | .chain h _ => by
    obtain ⟨t, us, rfl, ht⟩ := h.starts
    exact ⟨t, _, List.cons_append, ht⟩

theorem Primary.starts {ts : List Token} {e : Expr} :
    Primary ts e → ∃ t us, ts = t :: us ∧ Starts t
  | .number h => ⟨_, _, rfl, .inl h⟩
  | .string h => ⟨_, _, rfl, .inr (.inl h)⟩
  | .name h => ⟨_, _, rfl, .inr (.inr (.inl h))⟩
  | .call h _ _ _ => ⟨_, _, rfl, .inr (.inr (.inl h))⟩
  | .bracket h _ _ => ⟨_, _, rfl, .inr (.inr (.inr h))⟩

end

theorem Expression.ne_nil {ts : List Token} {e : Expr} (h : Expression ts e) : ts ≠ [] := by
  obtain ⟨t, us, rfl, -⟩ := h.starts
  exact List.cons_ne_nil t us

theorem Operation.ne_nil {rank : Nat} {ts : List Token} {e : Expr} (h : Operation rank ts e) :
    ts ≠ [] := by
  obtain ⟨t, us, rfl, -⟩ := h.starts
  exact List.cons_ne_nil t us

theorem ArgumentList.starts {ts : List Token} {args : List Expr} (h : ArgumentList ts args) :
    ∃ t us, ts = t :: us ∧ Starts t := by
  cases h with
  | last h => exact h.starts
  | more h _ _ =>
    obtain ⟨t, us, rfl, ht⟩ := h.starts
    exact ⟨t, _, List.cons_append, ht⟩

theorem Declaration.starts {ts : List Token} {n : Node} (h : Declaration ts n) :
    ∃ t us, ts = t :: us ∧ t.kind = .type := by
  cases h with
  | plain ht _ _ => exact ⟨_, _, rfl, ht⟩
  | initialized ht _ _ _ _ => exact ⟨_, _, rfl, ht⟩

theorem Function.starts {ts : List Token} {f : Node} (h : Function ts f) :
    ∃ t us, ts = t :: us ∧ t.kind = .type := by
  cases h with
  | intro ht => exact ⟨_, _, rfl, ht⟩

/-- No statement starts like a declaration or ends the items. -/
theorem Statement.starts {ts : List Token} {n : Node} (h : Statement ts n) :
    ∃ t us, ts = t :: us ∧ t.kind ≠ .type ∧ t.kind ≠ .eof ∧ t.is .punct "\x7d" = false := by
  cases h with
  | bareReturn hw _ =>
    have hkind := Token.kind_of_is hw
    exact ⟨_, _, rfl, by simp [hkind], by simp [hkind], Token.is_of_is hw (by decide)⟩
  | valueReturn hw _ _ =>
    have hkind := Token.kind_of_is hw
    exact ⟨_, _, rfl, by simp [hkind], by simp [hkind], Token.is_of_is hw (by decide)⟩
  | expression he _ =>
    obtain ⟨t, us, rfl, ht⟩ := he.starts
    exact ⟨t, _, List.cons_append, ht.kind_ne (by decide), ht.kind_ne (by decide),
      ht.is_eq_false (.inl rfl) (by decide)⟩

theorem Item.starts {ts : List Token} {n : Node} (h : Item ts n) :
    ∃ t us, ts = t :: us ∧ t.kind ≠ .eof ∧ t.is .punct "\x7d" = false := by
  cases h with
  | declaration h =>
    obtain ⟨t, us, rfl, ht⟩ := h.starts
    exact ⟨t, us, rfl, by simp [ht], Token.is_of_kind_ne (by simp [ht])⟩
  | statement h =>
    obtain ⟨t, us, rfl, -, ht⟩ := h.starts
    exact ⟨t, us, rfl, ht⟩

end Grammar

end MiniC
