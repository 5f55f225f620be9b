import MiniC.Parse.Program

/-!
# Outcomes of the parsers

A result of parsing carries a proof about the number of tokens it left, which
later arguments have no use for. The outcome of a parser forgets it, and every
parser satisfies one equation between outcomes. What is shown about the parsers
rests on these equations alone.
-/

namespace MiniC.Parse

variable {α β : Type} {n m : Nat}

/-- What was built and the tokens that were left, or a fault. -/
abbrev Outcome (α : Type) := Except Fault (α × List Token)

/-- The outcome of a parser, without the bound on what it left. -/
def outcome : Except Fault (Parsed α n) → Outcome α
  | .ok p => .ok (p.value, p.rest)
  | .error fault => .error fault

@[simp] theorem outcome_ok (p : Parsed α n) :
    outcome (.ok p : Except Fault (Parsed α n)) = .ok (p.value, p.rest) := rfl

@[simp] theorem outcome_error (fault : Fault) :
    outcome (.error fault : Except Fault (Parsed α n)) = .error fault := rfl

/-- What holds of some tokens whenever it holds of all fewer tokens holds of all tokens. -/
theorem shorter_induction {motive : List Token → Prop}
    (step : ∀ ts, (∀ us : List Token, us.length < ts.length → motive us) → motive ts)
    (ts : List Token) : motive ts := by
  induction hn : ts.length using Nat.strongRecOn generalizing ts with
  | ind n ih =>
    subst hn
    exact step ts fun us hu => ih us.length hu us rfl

/-- Something was read. -/
theorem outcome_shorter {r : Except Fault (Parsed α n)} {x : α} {rest : List Token}
    (h : outcome r = .ok (x, rest)) : rest.length < n := by
  cases r with
  | error fault => cases h
  | ok p =>
    cases h
    exact p.shorter

theorem outcome_tail_shorter {r : Except Fault (Parsed α n)} {x : α} {rest : List Token}
    (h : outcome r = .ok (x, rest)) : rest.tail.length < n := by
  have hshort := outcome_shorter h
  rw [List.length_tail]
  omega

namespace Outcome

/-- Go on from what was built and left, unless there is a fault. -/
def andThen : Outcome α → (α → List Token → Outcome β) → Outcome β
  | .ok (x, rest), following => following x rest
  | .error fault, _ => .error fault

@[simp] theorem andThen_ok (x : α) (rest : List Token) (following : α → List Token → Outcome β) :
    andThen (.ok (x, rest)) following = following x rest := rfl

@[simp] theorem andThen_error (fault : Fault) (following : α → List Token → Outcome β) :
    andThen (.error fault) following = .error fault := rfl

/-- Both steps of a success succeed. -/
theorem andThen_eq_ok_iff {o : Outcome α} {following : α → List Token → Outcome β}
    {r : β × List Token} :
    o.andThen following = .ok r ↔ ∃ x rest, o = .ok (x, rest) ∧ following x rest = .ok r := by
  cases o with
  | error fault => simp
  | ok p =>
    obtain ⟨x, rest⟩ := p
    simp only [andThen_ok, Except.ok.injEq, Prod.mk.injEq]
    grind

/-- A fault is a fault of the first step, or one of the second behind a success of the first. -/
theorem andThen_eq_error_iff {o : Outcome α} {following : α → List Token → Outcome β}
    {fault : Fault} :
    o.andThen following = .error fault ↔
      o = .error fault ∨ ∃ x rest, o = .ok (x, rest) ∧ following x rest = .error fault := by
  cases o with
  | error fault => simp
  | ok p =>
    obtain ⟨x, rest⟩ := p
    simp only [andThen_ok, reduceCtorEq, Except.ok.injEq, Prod.mk.injEq, false_or]
    grind

end Outcome

section Value

@[simp] theorem leaving_value (x : α) (rest : List Token) :
    (Parsed.leaving x rest).value = x := rfl

@[simp] theorem leaving_rest (x : α) (rest : List Token) :
    (Parsed.leaving x rest).rest = rest := rfl

variable (p : Parsed α n)

@[simp] theorem widen_value (h : n ≤ m) : (p.widen h).value = p.value := rfl

@[simp] theorem widen_rest (h : n ≤ m) : (p.widen h).rest = p.rest := rfl

@[simp] theorem succ_value : p.succ.value = p.value := rfl

@[simp] theorem succ_rest : p.succ.rest = p.rest := rfl

@[simp] theorem map_value (f : α → β) : (p.map f).value = f p.value := rfl

@[simp] theorem map_rest (f : α → β) : (p.map f).rest = p.rest := rfl

end Value

/-! ## Single tokens -/

/-- Read one token that meets a condition. -/
def single (expected : Expected) (wanted : Token → Bool) : List Token → Outcome Token
  | [] => .error ⟨expected, []⟩
  | t :: rest => if wanted t then .ok (t, rest) else .error ⟨expected, t :: rest⟩

/-- Read a token of a kind. -/
abbrev anyOf (k : Kind) : List Token → Outcome Token := single (.kind k) (·.kind = k)

/-- Read a particular token. -/
abbrev sign (k : Kind) (lexeme : String) : List Token → Outcome Token :=
  single (.token k lexeme) (·.is k lexeme)

theorem single_eq_ok_iff {expected : Expected} {wanted : Token → Bool} {ts rest : List Token}
    {t : Token} : single expected wanted ts = .ok (t, rest) ↔ ts = t :: rest ∧ wanted t = true := by
  cases ts with
  | nil => simp [single]
  | cons u us =>
    by_cases hu : wanted u = true
    · simp only [single, hu, if_true, Except.ok.injEq, Prod.mk.injEq, List.cons.injEq]
      grind
    · simp only [single, hu, List.cons.injEq]
      grind

theorem outcome_ofKind (k : Kind) (ts : List Token) : outcome (ofKind k ts) = anyOf k ts := by
  cases ts with
  | nil => rfl
  | cons t rest =>
    by_cases ht : t.kind = k
    · simp [ofKind, single, ht]
    · simp [ofKind, single, ht]

theorem outcome_exactly (k : Kind) (lexeme : String) (ts : List Token) :
    outcome (exactly k lexeme ts) = sign k lexeme ts := by
  cases ts with
  | nil => rfl
  | cons t rest =>
    by_cases ht : t.is k lexeme = true
    · simp [exactly, single, ht]
    · simp [exactly, single, ht]

@[simp] theorem next_cons (k : Kind) (lexeme : String) (t : Token) (rest : List Token) :
    next k lexeme (t :: rest) = t.is k lexeme := rfl

theorem next_eq_of_head? {ts us : List Token} (k : Kind) (lexeme : String)
    (h : us.head? = ts.head?) : next k lexeme us = next k lexeme ts := by
  cases us with
  | nil => rw [List.head?_eq_none_iff.mp h.symm]
  | cons u us =>
    obtain ⟨rest, rfl⟩ := List.head?_eq_some_iff.mp h.symm
    rfl

theorem eq_cons_of_next {k : Kind} {lexeme : String} {ts : List Token}
    (h : next k lexeme ts = true) : ∃ t rest, ts = t :: rest ∧ t.is k lexeme = true := by
  cases ts with
  | nil => cases h
  | cons t rest => exact ⟨t, rest, rfl, h⟩

/-! ## The end -/

/-- No token comes next but an end token. -/
def AtEnd (ts : List Token) : Prop := ∀ t ∈ ts.head?, t.kind = .eof

theorem atEnd_nil : AtEnd [] := nofun

theorem atEnd_cons {t : Token} {rest : List Token} : AtEnd (t :: rest) ↔ t.kind = .eof := by
  simp [AtEnd]

/-- Either the tokens are at their end or there is one to read. -/
theorem atEnd_or_cons (ts : List Token) :
    AtEnd ts ∨ ∃ t rest, ts = t :: rest ∧ t.kind ≠ .eof := by
  cases ts with
  | nil => exact .inl atEnd_nil
  | cons t rest =>
    by_cases ht : t.kind = .eof
    · exact .inl (atEnd_cons.mpr ht)
    · exact .inr ⟨t, rest, rfl, ht⟩

/-! ## Expressions -/

theorem outcome_expression (ts : List Token) :
    outcome (expression ts) =
      (outcome (operation Operator.ranks ts)).andThen fun left rest =>
        if next .operator "=" rest then
          (outcome (expression rest.tail)).andThen fun right rest =>
            .ok (.assign "=" left right, rest)
        else .ok (left, rest) := by
  rw [expression]
  cases operation Operator.ranks ts with
  | error fault => rfl
  | ok p =>
    obtain ⟨left, rest, hs⟩ := p
    cases rest with
    | nil => rfl
    | cons t rest =>
      by_cases ht : t.is .operator "=" = true
      · simp only [ht, if_true, outcome_ok, Outcome.andThen_ok, next_cons, List.tail_cons]
        cases expression rest with
        | error fault => rfl
        | ok right => rfl
      · simp [ht]

theorem outcome_operation (ranks : Nat) (ts : List Token) :
    outcome (operation ranks ts) =
      (outcome (primary ts)).andThen fun first rest => outcome (climb ranks first rest) := by
  rw [operation]
  cases primary ts with
  | error fault => rfl
  | ok first =>
    simp only [outcome_ok, Outcome.andThen_ok]
    cases climb ranks first.value first.rest with
    | error fault => rfl
    | ok whole => rfl

/-- Climbing ends before a token that is no operator of rank below the bound. -/
theorem outcome_climb_of_not_lt (ranks : Nat) (left : Expr) {ts : List Token}
    (h : ∀ t ∈ ts.head?, ∀ rank < ranks, operatorRank? t ≠ some rank) :
    outcome (climb ranks left ts) = .ok (left, ts) := by
  rw [climb.eq_def]
  cases ts with
  | nil => rfl
  | cons t rest =>
    cases ht : operatorRank? t with
    | none => simp [ht]
    | some rank =>
      have hr : ¬ rank < ranks := fun hlt => h t rfl rank hlt ht
      simp [ht, hr]

/-- Climbing reads an operator of rank below the bound and its right operand. -/
theorem outcome_climb_of_lt {ranks rank : Nat} (left : Expr) {t : Token} (rest : List Token)
    (ht : operatorRank? t = some rank) (hr : rank < ranks) :
    outcome (climb ranks left (t :: rest)) =
      (outcome (operation rank rest)).andThen fun right rest =>
        outcome (climb ranks (.binary t.lexeme left right) rest) := by
  rw [climb]
  simp only [ht, hr, if_true]
  cases operation rank rest with
  | error fault => rfl
  | ok right =>
    simp only [outcome_ok, Outcome.andThen_ok]
    cases climb ranks (.binary t.lexeme left right.value) right.rest with
    | error fault => rfl
    | ok whole => rfl

theorem outcome_primary_nil : outcome (primary []) = .error ⟨.expression, []⟩ := by
  rw [primary, outcome_error]

theorem outcome_primary_cons (t : Token) (rest : List Token) :
    outcome (primary (t :: rest)) =
      if t.kind = .number then .ok (.const (.number t.value), rest)
      else if t.kind = .string then .ok (.const (.string t.lexeme), rest)
      else if t.kind = .identifier then
        if next .punct "(" rest then
          (outcome (arguments rest.tail)).andThen fun args rest => .ok (.call t.lexeme args, rest)
        else .ok (.var t.lexeme, rest)
      else if t.is .punct "(" then
        (outcome (expression rest)).andThen fun inner rest =>
          (sign .punct ")" rest).andThen fun _ rest => .ok (inner, rest)
      else .error ⟨.expression, t :: rest⟩ := by
  rw [primary.eq_def]
  simp only
  split
  · rfl
  split
  · rfl
  split
  · cases rest with
    | nil => rfl
    | cons u rest =>
      by_cases hu : u.is .punct "(" = true
      · simp only [hu, if_true, next_cons, List.tail_cons]
        cases arguments rest with
        | error fault => rfl
        | ok args => rfl
      · simp [hu]
  split
  · cases expression rest with
    | error fault => rfl
    | ok inner =>
      simp only [outcome_ok, Outcome.andThen_ok, ← outcome_exactly]
      cases exactly .punct ")" inner.rest with
      | error fault => rfl
      | ok close => rfl
  · rfl

theorem outcome_argumentList (ts : List Token) :
    outcome (argumentList ts) =
      (outcome (expression ts)).andThen fun arg rest =>
        if next .punct "," rest then
          (outcome (argumentList rest.tail)).andThen fun args rest => .ok (arg :: args, rest)
        else (sign .punct ")" rest).andThen fun _ rest => .ok ([arg], rest) := by
  rw [argumentList]
  cases expression ts with
  | error fault => rfl
  | ok p =>
    obtain ⟨arg, rest, hs⟩ := p
    cases rest with
    | nil => rfl
    | cons t rest =>
      by_cases hc : t.is .punct "," = true
      · simp only [hc, if_true, outcome_ok, Outcome.andThen_ok, next_cons, List.tail_cons]
        cases argumentList rest with
        | error fault => rfl
        | ok args => rfl
      · by_cases hb : t.is .punct ")" = true
        · simp [hc, hb, single]
        · simp [hc, hb, single]

theorem outcome_arguments (ts : List Token) :
    outcome (arguments ts) =
      if next .punct ")" ts then .ok ([], ts.tail) else outcome (argumentList ts) := by
  rw [arguments.eq_def]
  cases ts with
  | nil =>
    rw [outcome_argumentList, outcome_expression, outcome_operation, outcome_primary_nil]
    rfl
  | cons t rest =>
    by_cases ht : t.is .punct ")" = true
    · simp [ht]
    · simp [ht]

/-! ## Declarations, statements and functions -/

/-- Read the semicolon behind something that was built. -/
def ended (x : α) (ts : List Token) : Outcome α :=
  (sign .punct ";" ts).andThen fun _ rest => .ok (x, rest)

theorem outcome_terminated (p : Parsed α n) : outcome (terminated p) = ended p.value p.rest := by
  rw [terminated, ended, ← outcome_exactly]
  cases exactly .punct ";" p.rest with
  | error fault => rfl
  | ok semicolon => rfl

private theorem outcome_initializer_andThen (ts : List Token)
    (following : Expr → List Token → Outcome α) :
    (outcome (initializer ts)).andThen following =
      if next .operator "=" ts then (outcome (expression ts.tail)).andThen following
      else following .hole ts := by
  cases ts with
  | nil => rfl
  | cons t rest =>
    by_cases ht : t.is .operator "=" = true
    · simp only [initializer, ht, if_true, next_cons, List.tail_cons]
      cases expression rest with
      | error fault => rfl
      | ok init => rfl
    · simp [initializer, ht]

theorem outcome_declaration (ts : List Token) :
    outcome (declaration ts) =
      (anyOf .type ts).andThen fun type rest =>
        (anyOf .identifier rest).andThen fun name rest =>
          if next .operator "=" rest then
            (outcome (expression rest.tail)).andThen fun init rest =>
              ended (.decl type.lexeme name.lexeme init) rest
          else ended (.decl type.lexeme name.lexeme .hole) rest := by
  rw [declaration, ← outcome_ofKind]
  cases ofKind .type ts with
  | error fault => rfl
  | ok type =>
    simp only [outcome_ok, Outcome.andThen_ok, ← outcome_ofKind]
    cases ofKind .identifier type.rest with
    | error fault => rfl
    | ok name =>
      simp only [outcome_ok, Outcome.andThen_ok]
      refine Eq.trans ?_ (outcome_initializer_andThen name.rest
        fun init rest => ended (Node.decl type.value.lexeme name.value.lexeme init) rest)
      cases initializer name.rest with
      | error fault => rfl
      | ok init => exact outcome_terminated _

theorem outcome_statement (ts : List Token) :
    outcome (statement ts) =
      if next .keyword "return" ts then
        if next .punct ";" ts.tail then .ok (.ret .hole, ts.tail.tail)
        else (outcome (expression ts.tail)).andThen fun value rest => ended (.ret value) rest
      else (outcome (expression ts)).andThen fun e rest => ended (.expr e) rest := by
  cases ts with
  | nil =>
    have he : outcome (expression []) = .error ⟨.expression, []⟩ := by
      rw [outcome_expression, outcome_operation, outcome_primary_nil]
      rfl
    rw [he]
    rfl
  | cons t rest =>
    by_cases ht : t.is .keyword "return" = true
    · simp only [statement, ht, if_true, next_cons, List.tail_cons, returnValue]
      by_cases hs : next .punct ";" rest = true
      · obtain ⟨semicolon, us, rfl, hk⟩ := eq_cons_of_next hs
        simp [outcome_terminated, ended, single, hk]
      · simp only [hs]
        cases expression rest with
        | error fault => rfl
        | ok value => exact outcome_terminated _
    · simp only [statement, ht, next_cons]
      cases expression (t :: rest) with
      | error fault => rfl
      | ok e => exact outcome_terminated _

/-- An item is read as a declaration or as a statement. -/
theorem outcome_item (ts : List Token) :
    outcome (item ts) = outcome (declaration ts) ∨ outcome (item ts) = outcome (statement ts) := by
  cases ts with
  | nil => exact .inr rfl
  | cons t rest =>
    by_cases ht : t.kind = .type
    · exact .inl (by simp [item, ht])
    · exact .inr (by simp [item, ht])

theorem outcome_items_of_atEnd {ts : List Token} (h : AtEnd ts) :
    outcome (items ts) = .error ⟨.token .punct "\x7d", ts⟩ := by
  cases ts with
  | nil => rw [items, outcome_error]
  | cons t rest => rw [items, if_pos (atEnd_cons.mp h), outcome_error]

theorem outcome_items_cons {t : Token} (rest : List Token) (he : t.kind ≠ .eof) :
    outcome (items (t :: rest)) =
      if t.is .punct "\x7d" then .ok ([], rest)
      else
        (outcome (item (t :: rest))).andThen fun head rest =>
          (outcome (items rest)).andThen fun tail rest => .ok (head :: tail, rest) := by
  rw [items, if_neg he]
  by_cases ht : t.is .punct "\x7d" = true
  · simp [ht]
  · simp only [ht]
    cases item (t :: rest) with
    | error fault => rfl
    | ok head =>
      simp only [outcome_ok, Outcome.andThen_ok]
      cases items head.rest with
      | error fault => rfl
      | ok tail => rfl

/-- Read the rest of a function behind its parameters. -/
def functionRest (type name : Token) (ts : List Token) : Outcome Node :=
  (sign .punct ")" ts).andThen fun _ rest =>
    (sign .punct "\x7b" rest).andThen fun _ rest =>
      (outcome (items rest)).andThen fun body rest =>
        .ok (.function type.lexeme name.lexeme [] body, rest)

theorem outcome_function (ts : List Token) :
    outcome (function ts) =
      (anyOf .type ts).andThen fun type rest =>
        (anyOf .identifier rest).andThen fun name rest =>
          (sign .punct "(" rest).andThen fun _ rest =>
            if next .type "void" rest then functionRest type name rest.tail
            else functionRest type name rest := by
  have hvoid (us : List Token) :
      (optionalVoid us).rest = if next .type "void" us then us.tail else us := by
    cases us with
    | nil => rfl
    | cons t us =>
      by_cases ht : t.is .type "void" = true
      · simp [optionalVoid, ht]
      · simp [optionalVoid, ht]
  rw [function, ← outcome_ofKind]
  cases ofKind .type ts with
  | error fault => rfl
  | ok type =>
    simp only [outcome_ok, Outcome.andThen_ok, ← outcome_ofKind]
    cases ofKind .identifier type.rest with
    | error fault => rfl
    | ok name =>
      simp only [outcome_ok, Outcome.andThen_ok, ← outcome_exactly]
      cases exactly .punct "(" name.rest with
      | error fault => rfl
      | ok bracket =>
        have hparams : functionRest type.value name.value (optionalVoid bracket.rest).rest =
            if next .type "void" bracket.rest then
              functionRest type.value name.value bracket.rest.tail
            else functionRest type.value name.value bracket.rest := by
          rw [hvoid]
          split
          · rfl
          · rfl
        refine Eq.trans ?_ hparams
        simp only [functionRest, ← outcome_exactly]
        cases exactly .punct ")" (optionalVoid bracket.rest).rest with
        | error fault => rfl
        | ok close =>
          simp only [outcome_ok, Outcome.andThen_ok]
          cases exactly .punct "\x7b" close.rest with
          | error fault => rfl
          | ok brace =>
            simp only [outcome_ok, Outcome.andThen_ok]
            cases items brace.rest with
            | error fault => rfl
            | ok body => rfl

theorem functions_of_atEnd {ts : List Token} (h : AtEnd ts) : functions ts = .ok [] := by
  cases ts with
  | nil => rw [functions]
  | cons t rest => rw [functions, if_pos (atEnd_cons.mp h)]

theorem functions_cons_type {t : Token} (rest : List Token) (ht : t.kind = .type) :
    functions (t :: rest) =
      match outcome (function (t :: rest)) with
      | .error fault => .error fault
      | .ok (head, rest) => (functions rest).map (head :: ·) := by
  rw [functions]
  simp only [ht, if_true]
  cases function (t :: rest) with
  | error fault => rfl
  | ok head =>
    simp only [outcome_ok]
    cases functions head.rest with
    | error fault => rfl
    | ok tail => rfl

theorem functions_cons_skip {t : Token} (rest : List Token) (he : t.kind ≠ .eof)
    (ht : t.kind ≠ .type) : functions (t :: rest) = functions rest := by
  rw [functions]
  simp [he, ht]

end MiniC.Parse
