import MiniC.Proofs.Grammar
import MiniC.Proofs.Parse.Outcome

/-!
# Parsers move forward

Whatever becomes of a parser, the tokens that are left are the last of the
tokens it was given, and no end token is among those it took. A parser that
succeeds took at least one. At a position in a list of tokens this means that
the position never moves back, never leaves the list and never passes an end
token.
-/

namespace MiniC.Parse

variable {α β : Type} {ts us vs : List Token}

/-- The tokens at which an outcome stands: those that were left, or those at the fault. -/
def Outcome.rest : Outcome α → List Token
  | .ok (_, rest) => rest
  | .error fault => fault.rest

@[simp] theorem Outcome.rest_ok (x : α) (rest : List Token) :
    Outcome.rest (.ok (x, rest) : Outcome α) = rest := rfl

@[simp] theorem Outcome.rest_error (fault : Fault) :
    Outcome.rest (.error fault : Outcome α) = fault.rest := rfl

/-- Some tokens are the last of others, and no end token stands before them. -/
def Leads (ts rest : List Token) : Prop :=
  ∃ used, ts = used ++ rest ∧ ∀ t ∈ used, t.kind ≠ .eof

namespace Leads

theorem refl (ts : List Token) : Leads ts ts := ⟨[], rfl, nofun⟩

theorem trans (h : Leads ts us) (h' : Leads us vs) : Leads ts vs := by
  obtain ⟨used, rfl, hused⟩ := h
  obtain ⟨used', rfl, hused'⟩ := h'
  refine ⟨used ++ used', (List.append_assoc ..).symm, fun t ht => ?_⟩
  rcases List.mem_append.mp ht with ht | ht
  · exact hused t ht
  · exact hused' t ht

theorem cons {t : Token} (ht : t.kind ≠ .eof) (rest : List Token) : Leads (t :: rest) rest :=
  ⟨[t], rfl, by simpa using ht⟩

theorem tail_of_next {k : Kind} {lexeme : String} (hk : k ≠ .eof) (h : next k lexeme ts = true) :
    Leads ts ts.tail := by
  obtain ⟨t, rest, rfl, ht⟩ := eq_cons_of_next h
  exact cons (by rwa [Token.kind_of_is ht]) rest

/-- One step after another. -/
theorem andThen {o : Outcome α} {following : α → List Token → Outcome β} (ho : Leads ts o.rest)
    (h : ∀ x rest, o = .ok (x, rest) → Leads rest (following x rest).rest) :
    Leads ts (o.andThen following).rest := by
  cases o with
  | error fault => exact ho
  | ok p =>
    obtain ⟨x, rest⟩ := p
    exact ho.trans (h x rest rfl)

theorem single {expected : Expected} {wanted : Token → Bool}
    (hwanted : ∀ t : Token, wanted t = true → t.kind ≠ .eof) (ts : List Token) :
    Leads ts (Parse.single expected wanted ts).rest := by
  cases ts with
  | nil => exact refl []
  | cons t rest =>
    by_cases ht : wanted t = true
    · simpa [Parse.single, ht] using cons (hwanted t ht) rest
    · simpa [Parse.single, ht] using refl (t :: rest)

theorem anyOf {k : Kind} (hk : k ≠ .eof) (ts : List Token) : Leads ts (Parse.anyOf k ts).rest := by
  refine single (fun t ht => ?_) ts
  rwa [of_decide_eq_true ht]

theorem sign {k : Kind} (hk : k ≠ .eof) (lexeme : String) (ts : List Token) :
    Leads ts (Parse.sign k lexeme ts).rest := by
  refine single (fun t ht => ?_) ts
  rwa [Token.kind_of_is ht]

/-- A particular token comes next, and something is read behind it. -/
theorem branch {k : Kind} {lexeme : String} (hk : k ≠ .eof) {o o' : Outcome α}
    (ht : Leads ts.tail o.rest) (hf : Leads ts o'.rest) :
    Leads ts (if next k lexeme ts then o else o').rest := by
  split
  case isTrue h => exact (tail_of_next hk h).trans ht
  case isFalse => exact hf

end Leads

/-! ## Expressions -/

/-- The parsers of expressions lead from some tokens to later ones. -/
private structure AllLead (ts : List Token) : Prop where
  primary : Leads ts (outcome (primary ts)).rest
  climb : ∀ ranks left, Leads ts (outcome (climb ranks left ts)).rest
  operation : ∀ ranks, Leads ts (outcome (operation ranks ts)).rest
  expression : Leads ts (outcome (expression ts)).rest
  argumentList : Leads ts (outcome (argumentList ts)).rest
  arguments : Leads ts (outcome (arguments ts)).rest

section Steps

variable (ih : ∀ us : List Token, us.length < ts.length → AllLead us)
include ih

private theorem primary_leads_step : Leads ts (outcome (primary ts)).rest := by
  cases ts with
  | nil => simpa [outcome_primary_nil] using Leads.refl []
  | cons t rest =>
    rw [outcome_primary_cons]
    split
    case isTrue ht => exact .cons (by simp [ht]) rest
    split
    case isTrue ht => exact .cons (by simp [ht]) rest
    split
    case isTrue ht =>
      refine (Leads.cons (by simp [ht]) rest).trans (.branch (by decide) ?_ (.refl rest))
      have hshort : rest.tail.length < (t :: rest).length := by
        rw [List.length_tail, List.length_cons]
        omega
      exact .andThen (ih _ hshort).arguments fun _ rest _ => .refl rest
    split
    case isTrue ht =>
      refine (Leads.cons (by simp [Token.kind_of_is ht]) rest).trans ?_
      refine .andThen (ih rest (Nat.lt_succ_self _)).expression fun _ rest _ => ?_
      exact .andThen (.sign (by decide) _ rest) fun _ rest _ => .refl rest
    exact .refl _

private theorem climb_leads_step (ranks : Nat) (left : Expr) :
    Leads ts (outcome (climb ranks left ts)).rest := by
  by_cases hjoins : ∃ t us rank, ts = t :: us ∧ operatorRank? t = some rank ∧ rank < ranks
  · obtain ⟨t, us, rank, rfl, ht, hlt⟩ := hjoins
    have hkind : t.kind ≠ .eof := by
      rintro hk
      simp [operatorRank?, hk] at ht
    rw [outcome_climb_of_lt left us ht hlt]
    refine (Leads.cons hkind us).trans (.andThen ((ih us (Nat.lt_succ_self _)).operation rank) ?_)
    intro right vs hvs
    exact (ih vs (Nat.lt_succ_of_lt (outcome_shorter hvs))).climb ranks _
  · rw [outcome_climb_of_not_lt ranks left]
    · exact .refl ts
    · intro t ht rank hlt hrank
      obtain ⟨us, rfl⟩ := List.head?_eq_some_iff.mp ht
      exact hjoins ⟨t, us, rank, rfl, hrank, hlt⟩

private theorem operation_leads_step (ranks : Nat) :
    Leads ts (outcome (operation ranks ts)).rest := by
  rw [outcome_operation]
  exact .andThen (primary_leads_step ih) fun first us hus =>
    (ih us (outcome_shorter hus)).climb ranks first

private theorem expression_leads_step : Leads ts (outcome (expression ts)).rest := by
  rw [outcome_expression]
  refine .andThen (operation_leads_step ih _) fun left us hus => ?_
  refine .branch (by decide) ?_ (.refl us)
  exact .andThen (ih _ (outcome_tail_shorter hus)).expression fun _ rest _ => .refl rest

private theorem argumentList_leads_step : Leads ts (outcome (argumentList ts)).rest := by
  rw [outcome_argumentList]
  refine .andThen (expression_leads_step ih) fun arg us hus => ?_
  refine .branch (by decide) ?_ ?_
  · exact .andThen (ih _ (outcome_tail_shorter hus)).argumentList fun _ rest _ => .refl rest
  · exact .andThen (.sign (by decide) _ us) fun _ rest _ => .refl rest

private theorem arguments_leads_step : Leads ts (outcome (arguments ts)).rest := by
  rw [outcome_arguments]
  exact .branch (by decide) (.refl _) (argumentList_leads_step ih)

end Steps

private theorem allLead (ts : List Token) : AllLead ts := by
  induction ts using shorter_induction with
  | step ts ih =>
    exact
      { primary := primary_leads_step ih
        climb := climb_leads_step ih
        operation := operation_leads_step ih
        expression := expression_leads_step ih
        argumentList := argumentList_leads_step ih
        arguments := arguments_leads_step ih }

theorem primary_leads (ts : List Token) : Leads ts (outcome (primary ts)).rest :=
  (allLead ts).primary

theorem operation_leads (ranks : Nat) (ts : List Token) :
    Leads ts (outcome (operation ranks ts)).rest :=
  (allLead ts).operation ranks

theorem expression_leads (ts : List Token) : Leads ts (outcome (expression ts)).rest :=
  (allLead ts).expression

/-- Read a call from its opening bracket on. -/
def call (name : Text.Bytes) (ts : List Token) : Outcome Expr :=
  (sign .punct "(" ts).andThen fun _ rest =>
    (outcome (arguments rest)).andThen fun args rest => .ok (.call name args, rest)

theorem call_of_next (name : Text.Bytes) (h : next .punct "(" ts = true) :
    call name ts =
      (outcome (arguments ts.tail)).andThen fun args rest => .ok (.call name args, rest) := by
  obtain ⟨t, rest, rfl, ht⟩ := eq_cons_of_next h
  have hsign : sign .punct "(" (t :: rest) = .ok (t, rest) := single_eq_ok_iff.mpr ⟨rfl, ht⟩
  rw [call, hsign]
  rfl

theorem call_leads (name : Text.Bytes) (ts : List Token) : Leads ts (call name ts).rest := by
  refine .andThen (.sign (by decide) _ ts) fun _ us _ => ?_
  exact .andThen (allLead us).arguments fun _ rest _ => .refl rest

/-! ## Declarations, statements and functions -/

theorem ended_leads (x : α) (ts : List Token) : Leads ts (ended x ts).rest :=
  .andThen (.sign (by decide) _ ts) fun _ rest _ => .refl rest

theorem declaration_leads (ts : List Token) : Leads ts (outcome (declaration ts)).rest := by
  rw [outcome_declaration]
  refine .andThen (.anyOf (by decide) ts) fun type us _ => ?_
  refine .andThen (.anyOf (by decide) us) fun name vs _ => ?_
  refine .branch (by decide) ?_ (ended_leads _ vs)
  exact .andThen (expression_leads _) fun _ rest _ => ended_leads _ rest

theorem statement_leads (ts : List Token) : Leads ts (outcome (statement ts)).rest := by
  rw [outcome_statement]
  refine .branch (by decide) (.branch (by decide) (.refl _) ?_) ?_
  · exact .andThen (expression_leads _) fun _ rest _ => ended_leads _ rest
  · exact .andThen (expression_leads _) fun _ rest _ => ended_leads _ rest

theorem item_leads (ts : List Token) : Leads ts (outcome (item ts)).rest := by
  rcases outcome_item ts with h | h
  · rw [h]
    exact declaration_leads ts
  · rw [h]
    exact statement_leads ts

theorem items_leads (ts : List Token) : Leads ts (outcome (items ts)).rest := by
  induction ts using shorter_induction with
  | step ts ih =>
    rcases atEnd_or_cons ts with hend | ⟨t, rest, rfl, ht⟩
    · rw [outcome_items_of_atEnd hend]
      exact .refl ts
    · rw [outcome_items_cons rest ht]
      split
      · exact .cons ht rest
      · refine .andThen (item_leads _) fun head us hus => ?_
        exact .andThen (ih us (outcome_shorter hus)) fun _ rest _ => .refl rest

/-- Read items between braces. -/
def block (ts : List Token) : Outcome (List Node) :=
  (sign .punct "\x7b" ts).andThen fun _ rest => outcome (items rest)

theorem block_leads (ts : List Token) : Leads ts (block ts).rest :=
  .andThen (.sign (by decide) _ ts) fun _ rest _ => items_leads rest

/-- A function ends in a block. -/
theorem functionRest_eq (type name : Token) (ts : List Token) :
    functionRest type name ts =
      (sign .punct ")" ts).andThen fun _ rest =>
        (block rest).andThen fun body rest =>
          .ok (.function type.lexeme name.lexeme [] body, rest) := by
  rw [functionRest]
  congr 1
  funext _ rest
  rw [block]
  cases sign .punct "\x7b" rest with
  | error fault => rfl
  | ok p => rfl

theorem functionRest_leads (type name : Token) (ts : List Token) :
    Leads ts (functionRest type name ts).rest := by
  rw [functionRest_eq]
  refine .andThen (.sign (by decide) _ ts) fun _ us _ => ?_
  exact .andThen (block_leads us) fun _ rest _ => .refl rest

theorem function_leads (ts : List Token) : Leads ts (outcome (function ts)).rest := by
  rw [outcome_function]
  refine .andThen (.anyOf (by decide) ts) fun type us _ => ?_
  refine .andThen (.anyOf (by decide) us) fun name vs _ => ?_
  refine .andThen (.sign (by decide) _ vs) fun _ ws _ => ?_
  exact .branch (by decide) (functionRest_leads type name _) (functionRest_leads type name ws)

/-! ## Positions -/

/-- A position may move to another: not back, not out of the tokens and not past an end token. -/
structure MovesTo (tokens : List Token) (pos pos' : Nat) : Prop where
  le : pos ≤ pos'
  le_length : pos' ≤ tokens.length
  le_end : ∀ (i : Nat) (t : Token), pos ≤ i → tokens[i]? = some t → t.kind = .eof → pos' ≤ i

theorem Leads.movesTo {tokens rest : List Token} {pos : Nat} (hpos : pos ≤ tokens.length)
    (h : Leads (tokens.drop pos) rest) :
    ∃ pos', rest = tokens.drop pos' ∧ MovesTo tokens pos pos' := by
  obtain ⟨used, hdrop, hused⟩ := h
  have hlength : tokens.length - pos = used.length + rest.length := by
    rw [← List.length_drop, hdrop, List.length_append]
  refine ⟨pos + used.length, ?_, Nat.le_add_right _ _, by omega, fun i t hle hi ht => ?_⟩
  · rw [← List.drop_drop, hdrop, List.drop_left]
  · refine Nat.le_of_not_lt fun hlt => ?_
    have hindex : (used ++ rest)[i - pos]? = some t := by
      rw [← hdrop, List.getElem?_drop, Nat.add_sub_cancel' hle, hi]
    rw [List.getElem?_append_left (by omega)] at hindex
    exact hused t (List.mem_of_getElem? hindex) ht

/-- Success moves the position forward, and a fault does not move it back. -/
structure Advances (read : List Token → Outcome α) (tokens : List Token) (pos : Nat) : Prop where
  success : ∀ x rest, read (tokens.drop pos) = .ok (x, rest) →
    ∃ pos', rest = tokens.drop pos' ∧ pos < pos' ∧ MovesTo tokens pos pos'
  failure : ∀ fault, read (tokens.drop pos) = .error fault →
    ∃ pos', fault.rest = tokens.drop pos' ∧ MovesTo tokens pos pos'

theorem advances_of_leads {read : List Token → Outcome α} {tokens : List Token} {pos : Nat}
    (hpos : pos ≤ tokens.length) (hleads : ∀ ts, Leads ts (read ts).rest)
    (hshort : ∀ ts x rest, read ts = .ok (x, rest) → rest.length < ts.length) :
    Advances read tokens pos where
  success x rest h := by
    have hmoves := hleads (tokens.drop pos)
    rw [h] at hmoves
    obtain ⟨pos', rfl, hto⟩ := hmoves.movesTo hpos
    have hlt := hshort _ _ _ h
    rw [List.length_drop, List.length_drop] at hlt
    exact ⟨pos', rfl, by omega, hto⟩
  failure fault h := by
    have hmoves := hleads (tokens.drop pos)
    rw [h] at hmoves
    exact hmoves.movesTo hpos

theorem sign_andThen_shorter {k : Kind} {lexeme : String} {following : List Token → Outcome α}
    (h : ∀ ts x rest, following ts = .ok (x, rest) → rest.length < ts.length) {rest : List Token}
    {x : α} (hok : ((sign k lexeme ts).andThen fun _ us => following us) = .ok (x, rest)) :
    rest.length < ts.length := by
  obtain ⟨t, us, hsign, hfollowing⟩ := Outcome.andThen_eq_ok_iff.mp hok
  obtain ⟨rfl, -⟩ := single_eq_ok_iff.mp hsign
  exact Nat.lt_succ_of_lt (h us x rest hfollowing)

/-- What the parsers do to a position in a list of tokens. -/
structure AllAdvance (tokens : List Token) (pos : Nat) : Prop where
  primary : Advances (fun ts => outcome (primary ts)) tokens pos
  operation (ranks : Nat) : Advances (fun ts => outcome (operation ranks ts)) tokens pos
  expression : Advances (fun ts => outcome (expression ts)) tokens pos
  call (name : Text.Bytes) : Advances (call name) tokens pos
  declaration : Advances (fun ts => outcome (declaration ts)) tokens pos
  statement : Advances (fun ts => outcome (statement ts)) tokens pos
  block : Advances block tokens pos
  function : Advances (fun ts => outcome (function ts)) tokens pos

theorem allAdvance {tokens : List Token} {pos : Nat} (hpos : pos ≤ tokens.length) :
    AllAdvance tokens pos where
  primary := advances_of_leads hpos primary_leads fun _ _ _ => outcome_shorter
  operation ranks := advances_of_leads hpos (operation_leads ranks) fun _ _ _ => outcome_shorter
  expression := advances_of_leads hpos expression_leads fun _ _ _ => outcome_shorter
  call name := by
    refine advances_of_leads hpos (call_leads name) fun ts x rest h => sign_andThen_shorter ?_ h
    intro us y vs hcall
    obtain ⟨args, ws, hargs, hw⟩ := Outcome.andThen_eq_ok_iff.mp hcall
    cases hw
    exact outcome_shorter hargs
  declaration := advances_of_leads hpos declaration_leads fun _ _ _ => outcome_shorter
  statement := advances_of_leads hpos statement_leads fun _ _ _ => outcome_shorter
  block := advances_of_leads hpos block_leads fun _ _ _ =>
    sign_andThen_shorter fun _ _ _ => outcome_shorter
  function := advances_of_leads hpos function_leads fun _ _ _ => outcome_shorter

end MiniC.Parse
