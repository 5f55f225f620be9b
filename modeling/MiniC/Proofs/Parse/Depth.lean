import MiniC.Proofs.Parse.Location
import MiniC.Proofs.Parse.Progress

/-!
# How deep parsing goes

The parsers call each other, and several of these calls are made before anything
was read. Here their bodies are given with the calls left open, so that the
calls can be cut off at a depth; a loop counts as a routine that calls itself
for its next round. Every call is lower than its caller in a measure that counts
the tokens left first and the kind of the routine after. So a depth that grows
with the number of tokens is never reached, and cutting off there changes
nothing.
-/

namespace MiniC.Parse

variable {α β : Type} {ts : List Token}

/-- The routines of the parser, with what they build. -/
inductive Routine : Type → Type where
  | primary : Routine Expr
  | operation (ranks : Nat) : Routine Expr
  | climb (ranks : Nat) (left : Expr) : Routine Expr
  | expression : Routine Expr
  | call (name : Text.Bytes) : Routine Expr
  | arguments : Routine (List Expr)
  | argumentList : Routine (List Expr)
  | declaration : Routine Node
  | statement : Routine Node
  | item : Routine Node
  | items : Routine (List Node)
  | block : Routine (List Node)
  | function : Routine Node
  | functions : Routine (List Node)

/-- Go on behind a call, unless it was cut off or there is a fault. -/
def afterCall (call : Option (Outcome α)) (following : α → List Token → Option (Outcome β)) :
    Option (Outcome β) :=
  match call with
  | none => none
  | some (.error fault) => some (.error fault)
  | some (.ok (x, rest)) => following x rest

theorem afterCall_eq_some {call : Option (Outcome α)} {o : Outcome α}
    {following : α → List Token → Option (Outcome β)} {following' : α → List Token → Outcome β}
    (hcall : call = some o)
    (h : ∀ x rest, o = .ok (x, rest) → following x rest = some (following' x rest)) :
    afterCall call following = some (o.andThen following') := by
  subst hcall
  cases o with
  | error fault => rfl
  | ok p => exact h p.1 p.2 rfl

namespace Routine

/-- What a routine reads. -/
def read : {α : Type} → Routine α → List Token → Outcome α
  | _, .primary, ts => outcome (Parse.primary ts)
  | _, .operation ranks, ts => outcome (Parse.operation ranks ts)
  | _, .climb ranks left, ts => outcome (Parse.climb ranks left ts)
  | _, .expression, ts => outcome (Parse.expression ts)
  | _, .call name, ts => Parse.call name ts
  | _, .arguments, ts => outcome (Parse.arguments ts)
  | _, .argumentList, ts => outcome (Parse.argumentList ts)
  | _, .declaration, ts => outcome (Parse.declaration ts)
  | _, .statement, ts => outcome (Parse.statement ts)
  | _, .item, ts => outcome (Parse.item ts)
  | _, .items, ts => outcome (Parse.items ts)
  | _, .block, ts => Parse.block ts
  | _, .function, ts => outcome (Parse.function ts)
  | _, .functions, ts => allFunctions ts

section Body

variable (self : ∀ ⦃β : Type⦄, Routine β → List Token → Option (Outcome β))

/-- The body of a routine, with its calls left open. -/
def body : {α : Type} → Routine α → List Token → Option (Outcome α)
  | _, .primary, [] => some (.error ⟨.expression, []⟩)
  | _, .primary, t :: rest =>
    if t.kind = .number then some (.ok (.const (.number t.value), rest))
    else if t.kind = .string then some (.ok (.const (.string t.lexeme), rest))
    else if t.kind = .identifier then
      if next .punct "(" rest then self (.call t.lexeme) rest
      else some (.ok (.var t.lexeme, rest))
    else if t.is .punct "(" then
      afterCall (self .expression rest) fun inner rest =>
        some ((sign .punct ")" rest).andThen fun _ rest => .ok (inner, rest))
    else some (.error ⟨.expression, t :: rest⟩)
  | _, .operation ranks, ts =>
    afterCall (self .primary ts) fun first rest => self (.climb ranks first) rest
  | _, .climb _ left, [] => some (.ok (left, []))
  | _, .climb ranks left, t :: rest =>
    match operatorRank? t with
    | none => some (.ok (left, t :: rest))
    | some rank =>
      if rank < ranks then
        afterCall (self (.operation rank) rest) fun right rest =>
          self (.climb ranks (.binary t.lexeme left right)) rest
      else some (.ok (left, t :: rest))
  | _, .expression, ts =>
    afterCall (self (.operation Operator.ranks) ts) fun left rest =>
      if next .operator "=" rest then
        afterCall (self .expression rest.tail) fun right rest =>
          some (.ok (.assign "=" left right, rest))
      else some (.ok (left, rest))
  | _, .call name, ts =>
    afterCall (some (sign .punct "(" ts)) fun _ rest =>
      afterCall (self .arguments rest) fun args rest => some (.ok (.call name args, rest))
  | _, .arguments, ts =>
    if next .punct ")" ts then some (.ok ([], ts.tail)) else self .argumentList ts
  | _, .argumentList, ts =>
    afterCall (self .expression ts) fun arg rest =>
      if next .punct "," rest then
        afterCall (self .argumentList rest.tail) fun args rest => some (.ok (arg :: args, rest))
      else some ((sign .punct ")" rest).andThen fun _ rest => .ok ([arg], rest))
  | _, .declaration, ts =>
    afterCall (some (anyOf .type ts)) fun type rest =>
      afterCall (some (anyOf .identifier rest)) fun name rest =>
        if next .operator "=" rest then
          afterCall (self .expression rest.tail) fun init rest =>
            some (ended (.decl type.lexeme name.lexeme init) rest)
        else some (ended (.decl type.lexeme name.lexeme .hole) rest)
  | _, .statement, ts =>
    if next .keyword "return" ts then
      if next .punct ";" ts.tail then some (.ok (.ret .hole, ts.tail.tail))
      else afterCall (self .expression ts.tail) fun value rest => some (ended (.ret value) rest)
    else afterCall (self .expression ts) fun e rest => some (ended (.expr e) rest)
  | _, .item, [] => self .statement []
  | _, .item, t :: rest =>
    if t.kind = .type then self .declaration (t :: rest) else self .statement (t :: rest)
  | _, .items, [] => some (.error ⟨.token .punct "\x7d", []⟩)
  | _, .items, t :: rest =>
    if t.kind = .eof then some (.error ⟨.token .punct "\x7d", t :: rest⟩)
    else if t.is .punct "\x7d" then some (.ok ([], rest))
    else
      afterCall (self .item (t :: rest)) fun head rest =>
        afterCall (self .items rest) fun tail rest => some (.ok (head :: tail, rest))
  | _, .block, ts =>
    afterCall (some (sign .punct "\x7b" ts)) fun _ rest => self .items rest
  | _, .function, ts =>
    afterCall (some (anyOf .type ts)) fun type rest =>
      afterCall (some (anyOf .identifier rest)) fun name rest =>
        afterCall (some (sign .punct "(" rest)) fun _ rest =>
          let parameters := if next .type "void" rest then rest.tail else rest
          afterCall (some (sign .punct ")" parameters)) fun _ rest =>
            afterCall (self .block rest) fun body rest =>
              some (.ok (.function type.lexeme name.lexeme [] body, rest))
  | _, .functions, [] => some (.ok ([], []))
  | _, .functions, t :: rest =>
    if t.kind = .eof then some (.ok ([], []))
    else if t.kind = .type then
      afterCall (self .function (t :: rest)) fun head rest =>
        afterCall (self .functions rest) fun tail rest => some (.ok (head :: tail, rest))
    else self .functions rest

end Body

/-- A routine with calls that go at most to the given depth. -/
def within : Nat → ⦃α : Type⦄ → Routine α → List Token → Option (Outcome α)
  | 0, _, _, _ => none
  | depth + 1, _, r, ts => body (within depth) r ts

/-- The order of the routines that call each other on the same tokens. -/
def height : Routine α → Nat
  | .operation _ => 1
  | .expression => 2
  | .argumentList => 3
  | .arguments => 4
  | .statement => 3
  | .item => 4
  | .items => 5
  | .functions => 1
  | _ => 0

theorem height_lt (r : Routine α) : r.height < 6 := by
  cases r <;> simp [height]

/-- The tokens left count first, the routine after: one token outweighs all heights. -/
def measure (r : Routine α) (ts : List Token) : Nat := 6 * ts.length + r.height

/-- Calls that are lower than a bound are answered with what the routine reads. -/
def Answers (self : ∀ ⦃β : Type⦄, Routine β → List Token → Option (Outcome β)) (bound : Nat) :
    Prop :=
  ∀ ⦃β : Type⦄ (r : Routine β) (us : List Token), r.measure us < bound → self r us = some (r.read us)

section Step

variable {self : ∀ ⦃β : Type⦄, Routine β → List Token → Option (Outcome β)} {caller : Routine α}

/-- Any routine may be called on fewer tokens. -/
theorem Answers.shorter (h : Answers self (caller.measure ts)) (r : Routine β) {us : List Token}
    (hu : us.length < ts.length) : self r us = some (r.read us) := by
  refine h r us ?_
  have := r.height_lt
  rw [measure, measure]
  omega

/-- On the same tokens, a routine of smaller height may be called. -/
theorem Answers.lower (h : Answers self (caller.measure ts)) (r : Routine β)
    (hr : r.height < caller.height) : self r ts = some (r.read ts) :=
  h r ts (Nat.add_lt_add_left hr _)

-- A routine that is known opens its body and its reading by definition, so each step below
-- changes the goal to these; the generated equations of all routines at once are not needed.
private theorem body_primary (h : Answers self (measure .primary ts)) :
    body self .primary ts = some (read .primary ts) := by
  cases ts with
  | nil => exact congrArg some outcome_primary_nil.symm
  | cons t rest =>
    have hrest : rest.length < (t :: rest).length := Nat.lt_succ_self _
    change (if t.kind = .number then _ else _) = some (outcome _)
    rw [outcome_primary_cons]
    split
    · rfl
    split
    · rfl
    split
    · split
      -- What follows the name of a function is read from its bracket on.
      case isTrue hnext =>
        rw [h.shorter (.call t.lexeme) hrest, ← call_of_next t.lexeme hnext]
        rfl
      · rfl
    split
    · exact afterCall_eq_some (h.shorter .expression hrest) fun _ _ _ => rfl
    · rfl

private theorem body_operation {ranks : Nat} (h : Answers self (measure (.operation ranks) ts)) :
    body self (.operation ranks) ts = some (read (.operation ranks) ts) := by
  change _ = some (outcome _)
  rw [outcome_operation]
  refine afterCall_eq_some (h.lower .primary Nat.zero_lt_one) fun first us hus => ?_
  exact h.shorter (.climb ranks first) (outcome_shorter hus)

private theorem body_climb {ranks : Nat} {left : Expr}
    (h : Answers self (measure (.climb ranks left) ts)) :
    body self (.climb ranks left) ts = some (read (.climb ranks left) ts) := by
  cases ts with
  | nil => exact congrArg some (outcome_climb_of_not_lt ranks left (by simp)).symm
  | cons t rest =>
    change (match operatorRank? t with | none => _ | some rank => _) = some (outcome _)
    cases ht : operatorRank? t with
    | none =>
      rw [outcome_climb_of_not_lt ranks left]
      simp [ht]
    | some rank =>
      by_cases hlt : rank < ranks
      · simp only [if_pos hlt]
        rw [outcome_climb_of_lt left rest ht hlt]
        refine afterCall_eq_some (h.shorter (.operation rank) (Nat.lt_succ_self _)) ?_
        intro right us hus
        exact h.shorter (.climb ranks _) (Nat.lt_succ_of_lt (outcome_shorter hus))
      · simp only [if_neg hlt]
        rw [outcome_climb_of_not_lt ranks left]
        intro u hu rank' hlt' hrank
        cases hu
        rw [ht, Option.some.injEq] at hrank
        exact hlt (hrank ▸ hlt')

private theorem body_expression (h : Answers self (measure .expression ts)) :
    body self .expression ts = some (read .expression ts) := by
  change _ = some (outcome _)
  rw [outcome_expression]
  refine afterCall_eq_some (h.lower (.operation _) (by decide)) fun left us hus => ?_
  split
  · exact afterCall_eq_some (h.shorter .expression (outcome_tail_shorter hus)) fun _ _ _ => rfl
  · rfl

private theorem body_call {name : Text.Bytes} (h : Answers self (measure (.call name) ts)) :
    body self (.call name) ts = some (read (.call name) ts) := by
  refine afterCall_eq_some rfl fun opening us hus => ?_
  obtain ⟨rfl, -⟩ := single_eq_ok_iff.mp hus
  exact afterCall_eq_some (h.shorter .arguments (Nat.lt_succ_self _)) fun _ _ _ => rfl

private theorem body_arguments (h : Answers self (measure .arguments ts)) :
    body self .arguments ts = some (read .arguments ts) := by
  change (if next .punct ")" ts then _ else _) = some (outcome _)
  rw [outcome_arguments, h.lower .argumentList (by decide)]
  split
  · rfl
  · rfl

private theorem body_argumentList (h : Answers self (measure .argumentList ts)) :
    body self .argumentList ts = some (read .argumentList ts) := by
  change _ = some (outcome _)
  rw [outcome_argumentList]
  refine afterCall_eq_some (h.lower .expression (by decide)) fun arg us hus => ?_
  split
  · exact afterCall_eq_some (h.shorter .argumentList (outcome_tail_shorter hus)) fun _ _ _ => rfl
  · rfl

private theorem body_declaration (h : Answers self (measure .declaration ts)) :
    body self .declaration ts = some (read .declaration ts) := by
  change _ = some (outcome _)
  rw [outcome_declaration]
  refine afterCall_eq_some rfl fun type us hus => afterCall_eq_some rfl fun name vs hvs => ?_
  obtain ⟨rfl, -⟩ := single_eq_ok_iff.mp hus
  obtain ⟨rfl, -⟩ := single_eq_ok_iff.mp hvs
  split
  · refine afterCall_eq_some (h.shorter .expression ?_) fun _ _ _ => rfl
    simp only [List.length_tail, List.length_cons]
    omega
  · rfl

private theorem body_statement (h : Answers self (measure .statement ts)) :
    body self .statement ts = some (read .statement ts) := by
  change (if next .keyword "return" ts then _ else _) = some (outcome _)
  rw [outcome_statement]
  split
  case isTrue hreturn =>
    obtain ⟨t, rest, rfl, -⟩ := eq_cons_of_next hreturn
    split
    · rfl
    · exact afterCall_eq_some (h.shorter .expression (Nat.lt_succ_self _)) fun _ _ _ => rfl
  case isFalse => exact afterCall_eq_some (h.lower .expression (by decide)) fun _ _ _ => rfl

private theorem body_item (h : Answers self (measure .item ts)) :
    body self .item ts = some (read .item ts) := by
  cases ts with
  | nil => exact h.lower .statement (by decide)
  | cons t rest =>
    change (if t.kind = .type then _ else _) = some (outcome (Parse.item (t :: rest)))
    rw [h.lower .declaration (by decide), h.lower .statement (by decide), Parse.item]
    split
    · rfl
    · rfl

private theorem body_items (h : Answers self (measure .items ts)) :
    body self .items ts = some (read .items ts) := by
  rcases atEnd_or_cons ts with hend | ⟨t, rest, rfl, ht⟩
  · change _ = some (outcome _)
    rw [outcome_items_of_atEnd hend]
    cases ts with
    | nil => rfl
    | cons t rest => exact if_pos (atEnd_cons.mp hend)
  · change (if t.kind = .eof then _ else _) = some (outcome _)
    rw [if_neg ht, outcome_items_cons rest ht]
    split
    · rfl
    · refine afterCall_eq_some (h.lower .item (by decide)) fun head us hus => ?_
      exact afterCall_eq_some (h.shorter .items (outcome_shorter hus)) fun _ _ _ => rfl

private theorem body_block (h : Answers self (measure .block ts)) :
    body self .block ts = some (read .block ts) := by
  refine afterCall_eq_some rfl fun opening us hus => ?_
  obtain ⟨rfl, -⟩ := single_eq_ok_iff.mp hus
  exact h.shorter .items (Nat.lt_succ_self _)

private theorem body_function (h : Answers self (measure .function ts)) :
    body self .function ts = some (read .function ts) := by
  change _ = some (outcome _)
  rw [outcome_function]
  refine afterCall_eq_some rfl fun type us hus => afterCall_eq_some rfl fun name vs hvs => ?_
  refine afterCall_eq_some rfl fun opening ws hws => ?_
  obtain ⟨rfl, -⟩ := single_eq_ok_iff.mp hus
  obtain ⟨rfl, -⟩ := single_eq_ok_iff.mp hvs
  obtain ⟨rfl, -⟩ := single_eq_ok_iff.mp hws
  -- With or without `void`, what follows has no more tokens than the parameters.
  have hparameters (xs : List Token) (hxs : xs.length ≤ ws.length) :
      (afterCall (some (sign .punct ")" xs)) fun _ rest =>
        afterCall (self .block rest) fun body rest =>
          some (.ok (.function type.lexeme name.lexeme [] body, rest))) =
        some (functionRest type name xs) := by
    rw [functionRest_eq]
    refine afterCall_eq_some rfl fun closing ys hys => ?_
    obtain ⟨rfl, -⟩ := single_eq_ok_iff.mp hys
    refine afterCall_eq_some (h.shorter .block ?_) fun _ _ _ => rfl
    simp only [List.length_cons] at hxs ⊢
    omega
  split
  · exact hparameters ws.tail (by simp)
  · exact hparameters ws (Nat.le_refl _)

private theorem body_functions (h : Answers self (measure .functions ts)) :
    body self .functions ts = some (read .functions ts) := by
  rcases atEnd_or_cons ts with hend | ⟨t, rest, rfl, hend⟩
  · change _ = some (allFunctions ts)
    rw [allFunctions, functions_of_atEnd hend]
    cases ts with
    | nil => rfl
    | cons t rest => exact if_pos (atEnd_cons.mp hend)
  · change (if t.kind = .eof then _ else _) = some (allFunctions (t :: rest))
    rw [if_neg hend]
    split
    case isTrue ht =>
      rw [allFunctions_cons_type rest ht]
      refine afterCall_eq_some (h.lower .function Nat.zero_lt_one) fun head us hus => ?_
      exact afterCall_eq_some (h.shorter .functions (outcome_shorter hus)) fun _ _ _ => rfl
    case isFalse ht =>
      rw [allFunctions, functions_cons_skip rest hend ht]
      exact h.shorter .functions (Nat.lt_succ_self _)

/-- A body is right if the calls below it are. -/
theorem body_eq {r : Routine α} (h : Answers self (r.measure ts)) :
    body self r ts = some (r.read ts) := by
  cases r with
  | primary => exact body_primary h
  | operation ranks => exact body_operation h
  | climb ranks left => exact body_climb h
  | expression => exact body_expression h
  | call name => exact body_call h
  | arguments => exact body_arguments h
  | argumentList => exact body_argumentList h
  | declaration => exact body_declaration h
  | statement => exact body_statement h
  | item => exact body_item h
  | items => exact body_items h
  | block => exact body_block h
  | function => exact body_function h
  | functions => exact body_functions h

end Step

/-- Every routine is done at a depth that its measure bounds. -/
theorem within_eq_some {depth : Nat} {r : Routine α} {ts : List Token} (h : r.measure ts < depth) :
    within depth r ts = some (r.read ts) := by
  induction depth generalizing α ts with
  | zero => cases h
  | succ depth ih =>
    exact body_eq fun β r' us hr' => ih (Nat.lt_of_lt_of_le hr' (Nat.le_of_lt_succ h))

end Routine

end MiniC.Parse
