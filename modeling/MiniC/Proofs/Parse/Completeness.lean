import MiniC.Proofs.Grammar
import MiniC.Proofs.Parse.Outcome

/-!
# Reading what the grammar derives

Every parser reads back what its rule of the grammar derives, provided that the
tokens behind it cannot prolong it: an operator of a rank still open would be
taken as one more operand, an equals sign as an assignment, and a bracket behind
a name as a call.

For operations the derivation is stratified and the parser is not. What connects
them is that climbing, whatever its bound, reaches the end of an operation of
tighter rank with that operation as its left operand and goes on from there.
-/

namespace MiniC.Parse

open Grammar

/-- What follows is no operator of rank below a bound. -/
def Loose (ranks : Nat) (rest : List Token) : Prop :=
  ∀ t ∈ rest.head?, ∀ rank < ranks, ¬ Joins rank t

/-- No call arises where what was read and what follows meet. -/
def Parted (used rest : List Token) : Prop :=
  ∀ u ∈ used.getLast?, ∀ t ∈ rest.head?, u.kind = .identifier → t.is .punct "(" = false

/-- What follows prolongs no expression that ends in what was read. -/
structure Closed (used rest : List Token) : Prop where
  parted : Parted used rest
  loose : Loose Operator.ranks rest
  unassigned : next .operator "=" rest = false

private theorem exists_operator_of_mem_signs {rank : Nat} {sign : String} (h : sign ∈ signs rank) :
    ∃ op ∈ Operator.all, op.symbol = sign ∧ op.rank = rank := by
  revert sign
  match rank with
  | 0 => decide
  | 1 => decide
  | 2 => decide
  | 3 => decide
  | _ + 4 => exact fun _ h => absurd h List.not_mem_nil

/-- A token is an operator of a rank exactly if its sign is in the table of that rank. -/
theorem operatorRank?_eq_some_iff {t : Token} {rank : Nat} :
    operatorRank? t = some rank ↔ Joins rank t := by
  unfold operatorRank? Joins
  by_cases hk : t.kind = .operator
  · simp only [hk, if_true, true_and, Option.map_eq_some_iff]
    constructor
    · rintro ⟨op, hop, rfl⟩
      rw [← Operator.symbol_of_ofSymbol? hop]
      exact ⟨op.symbol, by cases op <;> decide, rfl⟩
    · rintro ⟨sign, hs, hl⟩
      obtain ⟨op, -, rfl, hr⟩ := exists_operator_of_mem_signs hs
      exact ⟨op, by rw [hl, Operator.ofSymbol?_symbol], hr⟩
  · simp [hk]

/-- A token has at most one rank. -/
theorem rank_eq_of_joins {t : Token} {rank rank' : Nat} (h : Joins rank t) (h' : Joins rank' t) :
    rank = rank' := by
  rw [← operatorRank?_eq_some_iff] at h h'
  exact Option.some.inj (h.symm.trans h')

/-! ## What may follow -/

theorem outcome_climb_of_loose {ranks : Nat} (left : Expr) {ts : List Token} (h : Loose ranks ts) :
    outcome (climb ranks left ts) = .ok (left, ts) := by
  refine outcome_climb_of_not_lt ranks left fun t ht rank hr hrank => ?_
  exact h t ht rank hr (operatorRank?_eq_some_iff.mp hrank)

theorem outcome_climb_of_joins {ranks rank : Nat} (left : Expr) {t : Token} (rest : List Token)
    (ht : Joins rank t) (hr : rank < ranks) :
    outcome (climb ranks left (t :: rest)) =
      (outcome (operation rank rest)).andThen fun right rest =>
        outcome (climb ranks (.binary t.lexeme left right) rest) :=
  outcome_climb_of_lt left rest (operatorRank?_eq_some_iff.mpr ht) hr

theorem Loose.mono {ranks ranks' : Nat} {rest : List Token} (h : Loose ranks rest)
    (hr : ranks' ≤ ranks) : Loose ranks' rest :=
  fun t ht rank hlt => h t ht rank (Nat.lt_of_lt_of_le hlt hr)

/-- A chain starts with an operator of its own rank, so it is no prolongation at tighter ranks. -/
theorem Loose.links_append {rank : Nat} {left e : Expr} {us rest : List Token}
    (h : Links rank left us e) (hl : Loose rank rest) : Loose rank (us ++ rest) := by
  cases h with
  | nil => exact hl
  | cons hs _ _ =>
    rintro t ⟨⟩ rank' hlt hj
    exact Nat.ne_of_lt hlt (rank_eq_of_joins hj hs)

theorem Parted.of_not_bracket {used rest : List Token} {t : Token}
    (h : t.is .punct "(" = false) : Parted used (t :: rest) := by
  rintro u - t' ⟨⟩ -
  exact h

theorem Parted.of_kind_ne {t : Token} (ht : t.kind ≠ .identifier) (used rest : List Token) :
    Parted (used ++ [t]) rest := by
  intro u hu _ _ hk
  rw [List.getLast?_concat] at hu
  cases hu
  exact absurd hk ht

/-- Behind an operand stands an operator or what follows the whole chain. -/
theorem Parted.links_append {rank : Nat} {left e : Expr} {ts us rest : List Token}
    (h : Links rank left us e) (hp : Parted (ts ++ us) rest) : Parted ts (us ++ rest) := by
  cases h with
  | nil => simpa using hp
  | cons hs _ _ =>
    refine .of_not_bracket (Token.is_of_kind_ne ?_)
    simp [hs.1]

theorem Parted.append {us rest : List Token} (hp : Parted us rest) (hu : us ≠ [])
    (ts : List Token) : Parted (ts ++ us) rest := by
  have hlast : (ts ++ us).getLast? = us.getLast? := by
    rw [List.getLast?_append, List.getLast?_eq_some_getLast hu, Option.some_or]
  unfold Parted
  rwa [hlast]

theorem Parted.right {ts us rest : List Token} (hp : Parted (ts ++ us) rest) : Parted us rest := by
  intro u hu
  refine hp u ?_
  simp only [Option.mem_def] at hu ⊢
  rw [List.getLast?_append, hu]
  rfl

/-- A closing bracket, a comma or a semicolon ends every expression. -/
theorem Closed.of_sign {used rest : List Token} {t : Token} {lexeme : Text.Bytes}
    (h : t.is .punct lexeme = true) (hl : lexeme ≠ "(") : Closed used (t :: rest) where
  parted := .of_not_bracket (Token.is_of_is h hl)
  loose := by
    rintro t' ⟨⟩ rank - hj
    have hk := Token.kind_of_is h
    simp [hj.1] at hk
  unassigned := Token.is_of_kind_ne (by simp [Token.kind_of_is h])

theorem Loose.of_equals {ranks : Nat} {t : Token} {rest : List Token}
    (h : t.is .operator "=" = true) : Loose ranks (t :: rest) := by
  rintro t' ⟨⟩ rank - ⟨-, sign, hs, hl⟩
  have he : t.lexeme = Text.encode "=" := by
    simp only [Token.is, Bool.and_eq_true, decide_eq_true_eq] at h
    exact h.2
  obtain ⟨op, -, rfl, -⟩ := exists_operator_of_mem_signs hs
  rw [he] at hl
  revert hl
  cases op <;> decide

/-! ## Expressions -/

mutual

/-- A derived expression is read, up to a token that does not prolong it. -/
theorem outcome_expression_of_derived {ts rest : List Token} {e : Expr} :
    Expression ts e → Closed ts rest → outcome (expression (ts ++ rest)) = .ok (e, rest)
  | .operation h, hc => by
    rw [outcome_expression, outcome_operation_of_tighter h (Nat.le_refl _) hc.parted hc.loose,
      outcome_climb_of_loose e hc.loose]
    simp [hc.unassigned]
  | @Expression.assignment ts us equals left right ho hq he, hc => by
    have hpo : Parted ts (equals :: (us ++ rest)) :=
      .of_not_bracket (Token.is_of_kind_ne (by simp [Token.kind_of_is hq]))
    have hlo : Loose Operator.ranks (equals :: (us ++ rest)) := .of_equals hq
    have hce : Closed us rest :=
      ⟨(show Parted ([equals] ++ us) rest from hc.parted.right).right, hc.loose, hc.unassigned⟩
    rw [List.append_assoc, List.cons_append, outcome_expression,
      outcome_operation_of_tighter ho (Nat.le_refl _) hpo hlo, outcome_climb_of_loose left hlo]
    simp [hq, outcome_expression_of_derived he hce]

/-- Whatever its bound, climbing goes on from a derived operation of tighter rank. -/
theorem outcome_operation_of_tighter {rank ranks : Nat} {ts rest : List Token} {e : Expr} :
    Operation rank ts e → rank ≤ ranks → Parted ts rest → Loose rank rest →
      outcome (operation ranks (ts ++ rest)) = outcome (climb ranks e rest)
  | .primary h, _, hp, _ => by
    rw [outcome_operation, outcome_primary_of_derived h hp, Outcome.andThen_ok]
  | .chain ho hc, hr, hp, hl => by
    rw [List.append_assoc, outcome_operation_of_tighter ho (Nat.le_of_succ_le hr)
      (hp.links_append hc) ((hl.mono (Nat.le_succ _)).links_append hc)]
    exact outcome_climb_of_links hc hr hp.right hl

/-- Climbing passes over a chain of a rank below its bound and folds it onto its left operand. -/
theorem outcome_climb_of_links {rank ranks : Nat} {us rest : List Token} {left e : Expr} :
    Links rank left us e → rank < ranks → Parted us rest → Loose (rank + 1) rest →
      outcome (climb ranks left (us ++ rest)) = outcome (climb ranks e rest)
  | .nil, _, _, _ => rfl
  | @Links.cons rank sign ts us left right e hs ho hc, hr, hp, hl => by
    have hpc : Parted (ts ++ us) rest := (show Parted ([sign] ++ (ts ++ us)) rest from hp).right
    have hlo := (hl.mono (Nat.le_succ _)).links_append hc
    rw [List.cons_append, List.append_assoc, outcome_climb_of_joins left _ hs hr,
      outcome_operation_of_tighter ho (Nat.le_refl _) (hpc.links_append hc) hlo,
      outcome_climb_of_loose right hlo, Outcome.andThen_ok]
    exact outcome_climb_of_links hc hr hpc.right hl

/-- A derived primary is read, unless it is a name and a bracket makes it a call. -/
theorem outcome_primary_of_derived {ts rest : List Token} {e : Expr} :
    Primary ts e → Parted ts rest → outcome (primary (ts ++ rest)) = .ok (e, rest)
  | .number h, _ => by simp [outcome_primary_cons, h]
  | .string h, _ => by simp [outcome_primary_cons, h]
  | @Primary.name t h, hp => by
    have hn : next .punct "(" rest = false := by
      cases rest with
      | nil => rfl
      | cons u rest => exact hp t rfl u rfl h
    simp [outcome_primary_cons, h, hn]
  | @Primary.call t opening closing ts args ht ho ha hc, _ => by
    rw [List.cons_append, List.cons_append, List.append_assoc, List.singleton_append,
      outcome_primary_cons, List.tail_cons, outcome_arguments_of_derived ha hc]
    simp [ht, ho]
  | @Primary.bracket opening closing ts e ho he hc, _ => by
    rw [List.cons_append, List.append_assoc, List.singleton_append, outcome_primary_cons,
      outcome_expression_of_derived he (.of_sign hc (by decide))]
    simp [ho, Token.kind_of_is ho, single, hc]

/-- Derived arguments are read together with the closing bracket. -/
theorem outcome_arguments_of_derived {ts rest : List Token} {args : List Expr} {closing : Token} :
    Arguments ts args → closing.is .punct ")" →
      outcome (arguments (ts ++ closing :: rest)) = .ok (args, rest)
  | .none, hc => by simp [outcome_arguments, hc]
  | .some h, hc => by
    rw [outcome_arguments, outcome_argumentList_of_derived h hc]
    obtain ⟨t, us, rfl, ht⟩ := h.starts
    have hn : t.is .punct ")" = false := ht.is_eq_false (.inl rfl) (by decide)
    simp [hn]

/-- One or more derived arguments are read together with the closing bracket. -/
theorem outcome_argumentList_of_derived {ts rest : List Token} {args : List Expr}
    {closing : Token} :
    ArgumentList ts args → closing.is .punct ")" →
      outcome (argumentList (ts ++ closing :: rest)) = .ok (args, rest)
  | .last he, hc => by
    have hn : closing.is .punct "," = false := Token.is_of_is hc (by decide)
    rw [outcome_argumentList, outcome_expression_of_derived he (.of_sign hc (by decide))]
    simp [hn, single, hc]
  | .more he hq ha, hc => by
    rw [List.append_assoc, List.cons_append, outcome_argumentList,
      outcome_expression_of_derived he (.of_sign hq (by decide))]
    simp [hq, outcome_argumentList_of_derived ha hc]

end

/-- A derived operation is read under its own bound. -/
theorem outcome_operation_of_derived {ranks : Nat} {ts rest : List Token} {e : Expr}
    (h : Operation ranks ts e) (hp : Parted ts rest) (hl : Loose ranks rest) :
    outcome (operation ranks (ts ++ rest)) = .ok (e, rest) := by
  rw [outcome_operation_of_tighter h (Nat.le_refl _) hp hl, outcome_climb_of_loose e hl]

/-! ## Declarations, statements and functions -/

/-- A derived expression is read up to a semicolon. -/
theorem outcome_expression_semicolon {ts : List Token} {e : Expr} (h : Expression ts e)
    {semicolon : Token} (hs : semicolon.is .punct ";" = true) (rest : List Token) :
    outcome (expression (ts ++ semicolon :: rest)) = .ok (e, semicolon :: rest) :=
  outcome_expression_of_derived h (.of_sign hs (by decide))

theorem outcome_declaration_of_derived {ts : List Token} {n : Node} (h : Declaration ts n)
    (rest : List Token) : outcome (declaration (ts ++ rest)) = .ok (n, rest) := by
  cases h with
  | @plain type name semicolon ht hn hs =>
    have he : semicolon.is .operator "=" = false :=
      Token.is_of_kind_ne (by simp [Token.kind_of_is hs])
    simp [outcome_declaration, ended, single, ht, hn, he, hs]
  | initialized ht hn hq he hs =>
    rw [List.cons_append, List.cons_append, List.cons_append, List.append_assoc,
      List.singleton_append, outcome_declaration]
    simp [ended, single, ht, hn, hq, hs, outcome_expression_semicolon he hs]

theorem outcome_statement_of_derived {ts : List Token} {n : Node} (h : Statement ts n)
    (rest : List Token) : outcome (statement (ts ++ rest)) = .ok (n, rest) := by
  cases h with
  | bareReturn hw hs =>
    simp [outcome_statement, hw, hs]
  | valueReturn hw he hs =>
    rw [List.cons_append, List.append_assoc, List.singleton_append, outcome_statement,
      List.tail_cons, outcome_expression_semicolon he hs]
    obtain ⟨t, us, rfl, ht⟩ := he.starts
    have hn : t.is .punct ";" = false := ht.is_eq_false (.inl rfl) (by decide)
    simp [ended, single, hw, hn, hs]
  | expression he hs =>
    rw [List.append_assoc, List.singleton_append, outcome_statement,
      outcome_expression_semicolon he hs]
    obtain ⟨t, us, rfl, ht⟩ := he.starts
    have hn : t.is .keyword "return" = false := ht.is_eq_false (.inr rfl) (by decide)
    simp [ended, single, hn, hs]

theorem outcome_item_of_derived {ts : List Token} {n : Node} (h : Item ts n)
    (rest : List Token) : outcome (item (ts ++ rest)) = .ok (n, rest) := by
  cases h with
  | declaration h =>
    have hd := outcome_declaration_of_derived h rest
    obtain ⟨t, us, rfl, ht⟩ := h.starts
    rw [List.cons_append] at hd ⊢
    simpa [item, ht] using hd
  | statement h =>
    have hs := outcome_statement_of_derived h rest
    obtain ⟨t, us, rfl, ht, -⟩ := h.starts
    rw [List.cons_append] at hs ⊢
    simpa [item, ht] using hs

theorem outcome_items_of_derived {ts : List Token} {ns : List Node} (h : Items ts ns)
    {brace : Token} (hb : brace.is .punct "\x7d" = true) (rest : List Token) :
    outcome (items (ts ++ brace :: rest)) = .ok (ns, rest) := by
  induction h with
  | nil =>
    have hend : brace.kind ≠ .eof := by simp [Token.kind_of_is hb]
    simp [outcome_items_cons rest hend, hb]
  | cons hi _ ih =>
    have hd := outcome_item_of_derived hi
    obtain ⟨t, us, rfl, hend, ht⟩ := hi.starts
    rw [List.append_assoc, List.cons_append, outcome_items_cons _ hend, ← List.cons_append, hd]
    simp [ht, ih]

theorem outcome_function_of_derived {ts : List Token} {f : Node} (h : Function ts f)
    (rest : List Token) : outcome (function (ts ++ rest)) = .ok (f, rest) := by
  cases h with
  | @intro type name opening closing left right ps ts items ht hn ho hps hc hl hi hr =>
    have happ : type :: name :: opening :: (ps ++ closing :: left :: (ts ++ [right])) ++ rest =
        type :: name :: opening :: (ps ++ closing :: left :: (ts ++ right :: rest)) := by simp
    rw [happ, outcome_function]
    have hrest : functionRest type name (closing :: left :: (ts ++ right :: rest)) =
        .ok (.function type.lexeme name.lexeme [] items, rest) := by
      simp [functionRest, single, hc, hl, outcome_items_of_derived hi hr]
    cases hps with
    | none =>
      have hv : closing.is .type "void" = false :=
        Token.is_of_kind_ne (by simp [Token.kind_of_is hc])
      simp [single, ht, hn, ho, hv, hrest]
    | void hv => simp [single, ht, hn, ho, hv, hrest]

/-- A derived program without end tokens is read to its end. -/
theorem functions_of_derived {ts : List Token} {fs : List Node} (h : Functions ts fs)
    (hend : ∀ t ∈ ts, t.kind ≠ .eof) : functions ts = .ok fs := by
  induction h with
  | nil => rw [functions]
  | @cons ts us f fs hf _ ih =>
    have htail := ih fun t ht => hend t (List.mem_append_right ts ht)
    obtain ⟨t, vs, rfl, ht⟩ := hf.starts
    rw [List.cons_append, functions_cons_type _ ht, ← List.cons_append,
      outcome_function_of_derived hf]
    simp only [htail]
    rfl
  | skip ht _ ih =>
    obtain ⟨he, hend⟩ := List.forall_mem_cons.mp hend
    rw [functions_cons_skip _ he ht, ih hend]

end MiniC.Parse
