import Mathlib.Logic.ExistsUnique
import MiniC.Proofs.Parse.Soundness

/-!
# Where parsing fails

A fault keeps the tokens that were not read when it arose. What was read before
it can be completed to something derived, and from the first token of the fault
on nothing matters: whatever follows this token, the fault is the same. So the
fault stands at the first token at which nothing derived can go on.

The property is kept by the ways in which the parsers are put together. What is
still to be derived behind tokens already read is what the grammar derives from
both together, so no rule has to be cut in the middle.
-/

namespace MiniC.Parse

open Grammar

variable {α β : Type} {ts : List Token}

/-- What was read is the start of something derived, and no end token is needed to complete it. -/
def Viable (derived : List Token → α → Prop) (before : List Token) : Prop :=
  ∃ after x, (∀ t ∈ after, t.kind ≠ .eof) ∧ derived (before ++ after) x

/-- A fault in some tokens is at the first of them at which nothing derived can go on. -/
def Located (read : List Token → Outcome α) (derived : List Token → α → Prop)
    (ts : List Token) : Prop :=
  ∀ ⦃fault : Fault⦄, read ts = .error fault →
    ∃ before, ts = before ++ fault.rest ∧ Viable derived before ∧
      ∀ t rest, fault.rest = t :: rest →
        ∀ after, read (before ++ t :: after) = .error ⟨fault.expected, t :: after⟩

/-- Whether something follows is decided by its first token. -/
def ByHead (follow : List Token → List Token → Prop) : Prop :=
  ∀ ⦃used : List Token⦄ ⦃t : Token⦄ ⦃rest : List Token⦄ (rest' : List Token),
    follow used (t :: rest) → follow used (t :: rest')

namespace Located

variable {read : List Token → Outcome α} {derived : List Token → α → Prop}
  {whole : List Token → β → Prop}

/-- What raises no fault. -/
theorem of_ok {p : α × List Token} (h : read ts = .ok p) : Located read derived ts := by
  intro fault hf
  rw [h] at hf
  cases hf

theorem mono {derived' : List Token → α → Prop} (h : Located read derived ts)
    (hd : ∀ us x, derived us x → derived' us x) : Located read derived' ts := by
  intro fault hf
  obtain ⟨before, hts, ⟨after, x, hend, hx⟩, hdead⟩ := h hf
  exact ⟨before, hts, ⟨after, x, hend, hd _ _ hx⟩, hdead⟩

theorem congr {read' : List Token → Outcome α} (he : ∀ us, read us = read' us)
    (h : Located read' derived ts) : Located read derived ts := by
  rwa [funext he]

/-- A fault at the very next token. -/
theorem of_error (expected : Expected) (hv : Viable derived [])
    (h : ∀ ts', ts'.head? = ts.head? → read ts' = .error ⟨expected, ts'⟩) :
    Located read derived ts := by
  intro fault hf
  rw [h ts rfl] at hf
  cases hf
  refine ⟨[], rfl, hv, ?_⟩
  rintro t rest rfl after
  exact h (t :: after) rfl

/-- A token that was read belongs to what was derived. -/
theorem cons {t : Token} {rest : List Token}
    (h : Located (fun us => read (t :: us)) (fun us x => derived (t :: us) x) rest) :
    Located read derived (t :: rest) := by
  intro fault hf
  obtain ⟨before, rfl, ⟨after, x, hend, hx⟩, hdead⟩ := h hf
  exact ⟨t :: before, rfl, ⟨after, x, hend, hx⟩, hdead⟩

/-- A parser chosen by the next token is chosen again however the tokens behind a fault change. -/
theorem congr_head (read' : List Token → Outcome α)
    (he : ∀ us : List Token, us.head? = ts.head? → read us = read' us)
    (h : Located read' derived ts) : Located read derived ts := by
  intro fault hf
  rw [he ts rfl] at hf
  obtain ⟨before, rfl, hv, hdead⟩ := h hf
  refine ⟨before, rfl, hv, ?_⟩
  intro t rest ht after
  have hhead : (before ++ t :: after).head? = (before ++ fault.rest).head? := by
    rw [ht]
    cases before with
    | nil => rfl
    | cons b before => rfl
  rw [he _ hhead]
  exact hdead t rest ht after

/-- A choice between going on behind the next token and going on from it. -/
theorem branch {k : Kind} {lexeme : String} (read read' : List Token → Outcome α)
    (ht : ∀ t rest, ts = t :: rest → t.is k lexeme →
      Located read (fun us x => derived (t :: us) x) rest)
    (hf : next k lexeme ts = false → Located read' derived ts) :
    Located (fun us => if next k lexeme us then read us.tail else read' us) derived ts := by
  by_cases hn : next k lexeme ts = true
  · obtain ⟨t, rest, rfl, hk⟩ := eq_cons_of_next hn
    refine cons ?_
    simpa [hk] using ht t rest rfl hk
  · rw [Bool.not_eq_true] at hn
    refine congr_head read' ?_ (hf hn)
    intro us hus
    simp [next_eq_of_head? k lexeme hus, hn]

/-- A fault of two parsers in a row is a fault of the first, or one of the second behind what
the first has read, which it reads again whatever comes later. -/
theorem andThen {follow : List Token → List Token → Prop} {following : α → List Token → Outcome β}
    (hread : Exact read derived follow) (hhead : ByHead follow) (h : Located read derived ts)
    (hgo : ∀ us x, derived us x → Viable whole us)
    (hq : ∀ us x rest, ts = us ++ rest → derived us x → follow us rest →
      Located (following x) (fun vs y => whole (us ++ vs) y) rest) :
    Located (fun us => (read us).andThen following) whole ts := by
  intro fault hfault
  rcases Outcome.andThen_eq_error_iff.mp hfault with hfirst | ⟨x, rest, hx, hsecond⟩
  · obtain ⟨before, hts, ⟨after, x, hend, hx⟩, hdead⟩ := h hfirst
    obtain ⟨vs, y, hend', hy⟩ := hgo _ x hx
    have hend'' : ∀ t ∈ after ++ vs, t.kind ≠ .eof :=
      fun t ht => (List.mem_append.mp ht).elim (hend t) (hend' t)
    refine ⟨before, hts, ⟨after ++ vs, y, hend'', by simpa using hy⟩, ?_⟩
    intro t us ht later
    simp [hdead t us ht later]
  · obtain ⟨used, rfl, hd, hfollow⟩ := hread.sound ts hx
    obtain ⟨before, rfl, ⟨after, y, hend, hy⟩, hdead⟩ := hq used x rest rfl hd hfollow hsecond
    refine ⟨used ++ before, by simp, ⟨after, y, hend, by simpa using hy⟩, ?_⟩
    intro t us ht later
    have hfollow' : follow used (before ++ t :: later) := by
      rw [ht] at hfollow
      cases before with
      | nil => exact hhead later hfollow
      | cons b before => exact hhead _ hfollow
    simp only [List.append_assoc, hread.complete hd hfollow', Outcome.andThen_ok]
    exact hdead t us ht later

/-- What is made of something derived after all of it was read. -/
theorem map {f : α → β} (h : Located read derived ts)
    (hd : ∀ us x, derived us x → whole us (f x)) :
    Located (fun us => (read us).andThen fun x rest => .ok (f x, rest)) whole ts := by
  intro fault hfault
  rcases Outcome.andThen_eq_error_iff.mp hfault with hfirst | ⟨x, rest, -, hsecond⟩
  · obtain ⟨before, hts, ⟨after, x, hend, hx⟩, hdead⟩ := h hfirst
    refine ⟨before, hts, ⟨after, f x, hend, hd _ x hx⟩, ?_⟩
    intro t us ht later
    simp [hdead t us ht later]
  · cases hsecond

/-- A token that meets a condition, and then what follows it. -/
theorem single {expected : Expected} {wanted : Token → Bool}
    {following : Token → List Token → Outcome β} (hv : Viable whole [])
    (hq : ∀ t rest, ts = t :: rest → wanted t = true →
      Located (following t) (fun vs y => whole (t :: vs) y) rest) :
    Located (fun us => (Parse.single expected wanted us).andThen following) whole ts := by
  by_cases ht : ∃ t rest, ts = t :: rest ∧ wanted t = true
  · obtain ⟨t, rest, rfl, ht⟩ := ht
    refine cons ?_
    simpa [Parse.single, ht] using hq t rest rfl ht
  · refine of_error expected hv ?_
    intro ts' hts'
    cases ts' with
    | nil => rfl
    | cons t rest =>
      have hw : wanted t = false := by
        obtain ⟨rest', rfl⟩ := List.head?_eq_some_iff.mp hts'.symm
        simpa using ht
      simp [Parse.single, hw]

end Located

theorem byHead_parted : ByHead Parted :=
  fun _ _ _ _ h u hu _ ht => h u hu _ ht

theorem byHead_loose (ranks : Nat) : ByHead fun used rest => Parted used rest ∧ Loose ranks rest :=
  fun _ _ _ rest' h => ⟨byHead_parted rest' h.1, h.2⟩

theorem byHead_closed : ByHead Closed :=
  fun _ _ _ rest' h => ⟨byHead_parted rest' h.parted, h.loose, h.unassigned⟩

theorem byHead_whatever : ByHead Whatever := fun _ _ _ _ _ => trivial

/-- A token with a given kind and text, to complete what was read. -/
def someToken (k : Kind) (lexeme : String) : Token := { kind := k, lexeme, line := 0 }

@[simp] theorem someToken_kind (k : Kind) (lexeme : String) : (someToken k lexeme).kind = k := rfl

@[simp] theorem someToken_is (k : Kind) (lexeme : String) :
    (someToken k lexeme).is k lexeme = true := by
  simp [someToken, Token.is]

/-! ## Expressions -/

abbrev PrimaryLocated : List Token → Prop := Located (fun ts => outcome (primary ts)) Primary

abbrev OperationLocated (ranks : Nat) : List Token → Prop :=
  Located (fun ts => outcome (operation ranks ts)) (Operation ranks)

/-- Climbing behind an operation that stands on its left fails at the first token at which no
operation below the bound can go on. -/
def ClimbLocated (ranks : Nat) (ts : List Token) : Prop :=
  ∀ ⦃rank : Nat⦄ ⦃before : List Token⦄ ⦃left : Expr⦄, Operation rank before left → rank ≤ ranks →
    (∀ t ∈ ts.head?, ∀ rank', Joins rank' t → rank ≤ rank' + 1) →
      Located (fun ts => outcome (climb ranks left ts))
        (fun us e => Operation ranks (before ++ us) e) ts

abbrev ExpressionLocated : List Token → Prop :=
  Located (fun ts => outcome (expression ts)) Expression

abbrev ArgumentListLocated : List Token → Prop :=
  Located (fun ts => outcome (argumentList ts)) (Enclosed ")" ArgumentList)

abbrev ArgumentsLocated : List Token → Prop :=
  Located (fun ts => outcome (arguments ts)) (Enclosed ")" Arguments)

theorem viable_primary : Viable Primary [] :=
  ⟨[someToken .number "0"], _, by simp, .number rfl⟩

section Steps

private theorem primary_located_step
    (he : ∀ us : List Token, us.length < ts.length → ExpressionLocated us)
    (ha : ∀ us : List Token, us.length < ts.length → ArgumentsLocated us) :
    PrimaryLocated ts := by
  cases ts with
  | nil =>
    refine .of_error .expression viable_primary fun ts' h => ?_
    rw [List.head?_eq_none_iff.mp h, outcome_primary_nil]
  | cons t rest =>
    by_cases hnum : t.kind = .number
    · exact .of_ok (by rw [outcome_primary_cons, if_pos hnum])
    by_cases hstr : t.kind = .string
    · exact .of_ok (by rw [outcome_primary_cons, if_neg hnum, if_pos hstr])
    by_cases hid : t.kind = .identifier
    · refine .cons ?_
      simp only [outcome_primary_cons, if_neg hnum, if_neg hstr, if_pos hid]
      refine .branch (fun us => (outcome (arguments us)).andThen fun args rest =>
        .ok (Expr.call t.lexeme args, rest)) (fun us => .ok (.var t.lexeme, us)) ?_
        fun _ => .of_ok rfl
      rintro opening us rfl hopen
      have hshort : us.length < (t :: opening :: us).length := by
        simp only [List.length_cons]
        omega
      refine (ha us hshort).map ?_
      rintro _ args ⟨inner, closing, rfl, hargs, hc⟩
      exact .call hid hopen hargs hc
    by_cases hb : t.is .punct "(" = true
    · refine .cons ?_
      simp only [outcome_primary_cons, if_neg hnum, if_neg hstr, if_neg hid, if_pos hb]
      have hclose {inner : List Token} {e : Expr} (h : Expression inner e) :
          Viable (fun us => Primary (t :: us)) inner :=
        ⟨[someToken .punct ")"], e, by simp, .bracket hb h (someToken_is _ _)⟩
      refine .andThen expression_exact byHead_closed (he rest (Nat.lt_succ_self _)) ?_ ?_
      · exact fun _ _ => hclose
      · exact fun _ _ _ _ hinner _ => .single (hclose hinner) fun _ _ _ _ => .of_ok rfl
    · refine .of_error .expression viable_primary fun ts' h => ?_
      obtain ⟨us, rfl⟩ := List.head?_eq_some_iff.mp h
      rw [outcome_primary_cons, if_neg hnum, if_neg hstr, if_neg hid, if_neg hb]

private theorem climb_located_step {ranks : Nat}
    (ho : ∀ us : List Token, us.length < ts.length → ∀ rank, OperationLocated rank us)
    (hc : ∀ us : List Token, us.length < ts.length → ClimbLocated ranks us) :
    ClimbLocated ranks ts := by
  intro rank before left hleft hr hnext
  rcases loose_or_joins ranks ts with hl | ⟨t, us, rank', rfl, hj, hlt⟩
  · exact .of_ok (outcome_climb_of_loose left hl)
  · refine .cons ?_
    simp only [outcome_climb_of_joins left _ hj hlt]
    have hsnoc {operand : List Token} {right : Expr} (hop : Operation rank' operand right) :
        Operation (rank' + 1) (before ++ t :: operand) (.binary t.lexeme left right) :=
      (hleft.mono (hnext t rfl rank' hj)).snoc hj hop
    refine .andThen (operation_exact rank') (byHead_loose rank')
      (ho us (Nat.lt_succ_self _) rank') ?_ ?_
    · intro operand right hop
      exact ⟨[], _, by simp, by simpa using (hsnoc hop).mono hlt⟩
    · rintro operand right vs rfl hop ⟨-, hlv⟩
      have hshort : vs.length < (t :: (operand ++ vs)).length := by
        simp only [List.length_cons, List.length_append]
        omega
      have hnextv : ∀ u ∈ vs.head?, ∀ rank'', Joins rank'' u → rank' + 1 ≤ rank'' + 1 := by
        intro u hu rank'' hju
        exact Nat.succ_le_succ (Nat.le_of_not_lt fun hlt => hlv u hu rank'' hlt hju)
      simpa using hc vs hshort (hsnoc hop) hlt hnextv

private theorem operation_located_step {ranks : Nat} (hp : PrimaryLocated ts)
    (hc : ∀ us : List Token, us.length < ts.length → ClimbLocated ranks us) :
    OperationLocated ranks ts := by
  refine .congr (outcome_operation ranks) ?_
  refine .andThen primary_exact byHead_parted hp ?_ ?_
  · intro operand e hprim
    exact ⟨[], e, by simp, by simpa using (Operation.primary hprim).mono (Nat.zero_le _)⟩
  · rintro operand e us rfl hprim -
    have hshort : us.length < (operand ++ us).length := by
      have := List.length_pos_iff.mpr (Operation.primary hprim).ne_nil
      rw [List.length_append]
      omega
    exact hc us hshort (.primary hprim) (Nat.zero_le _) fun _ _ _ _ => Nat.zero_le _

private theorem expression_located_step (ho : OperationLocated Operator.ranks ts)
    (he : ∀ us : List Token, us.length < ts.length → ExpressionLocated us) :
    ExpressionLocated ts := by
  refine .congr outcome_expression ?_
  refine .andThen (operation_exact _) (byHead_loose _) ho ?_ ?_
  · intro operand left hop
    exact ⟨[], left, by simp, by simpa using Expression.operation hop⟩
  · rintro operand left us rfl hop -
    refine .branch (fun us => (outcome (expression us)).andThen fun right rest =>
      .ok (Expr.assign "=" left right, rest)) (fun us => .ok (left, us)) ?_ fun _ => .of_ok rfl
    rintro equals vs rfl hq
    have hshort : vs.length < (operand ++ equals :: vs).length := by
      rw [List.length_append, List.length_cons]
      omega
    exact (he vs hshort).map fun _ _ hright => .assignment hop hq hright

private theorem argumentList_located_step (he : ExpressionLocated ts)
    (ha : ∀ us : List Token, us.length < ts.length → ArgumentListLocated us) :
    ArgumentListLocated ts := by
  refine .congr outcome_argumentList ?_
  have hgo {used : List Token} {arg : Expr} (h : Expression used arg) :
      Viable (Enclosed ")" ArgumentList) used :=
    ⟨[someToken .punct ")"], [arg], by simp, used, _, rfl, .last h, someToken_is _ _⟩
  refine .andThen expression_exact byHead_closed he (fun _ _ => hgo) ?_
  rintro used arg us rfl harg -
  refine .branch (fun us => (outcome (argumentList us)).andThen fun args rest =>
    .ok (arg :: args, rest)) (fun us => (sign .punct ")" us).andThen fun _ rest =>
      .ok ([arg], rest)) ?_ fun _ => .single (hgo harg) fun _ _ _ _ => .of_ok rfl
  rintro comma vs rfl hcomma
  have hshort : vs.length < (used ++ comma :: vs).length := by
    rw [List.length_append, List.length_cons]
    omega
  refine (ha vs hshort).map ?_
  rintro _ args ⟨inner, closing, rfl, hargs, hc⟩
  exact ⟨used ++ comma :: inner, closing, by simp, .more harg hcomma hargs, hc⟩

private theorem arguments_located_step (ha : ArgumentListLocated ts) : ArgumentsLocated ts := by
  refine .congr outcome_arguments ?_
  refine .branch (fun us => .ok ([], us)) (fun us => outcome (argumentList us))
    (fun _ _ _ _ => .of_ok rfl) fun _ => ha.mono ?_
  rintro _ args ⟨inner, closing, rfl, hargs, hc⟩
  exact ⟨inner, closing, rfl, .some hargs, hc⟩

end Steps

/-- The faults of all parsers of expressions are located. -/
private structure AllLocated (ts : List Token) : Prop where
  primary : PrimaryLocated ts
  climb : ∀ ranks, ClimbLocated ranks ts
  operation : ∀ ranks, OperationLocated ranks ts
  expression : ExpressionLocated ts
  argumentList : ArgumentListLocated ts
  arguments : ArgumentsLocated ts

private theorem allLocated (ts : List Token) : AllLocated ts := by
  induction ts using shorter_induction with
  | step ts ih =>
    have hprimary := primary_located_step (fun us hu => (ih us hu).expression)
      (fun us hu => (ih us hu).arguments)
    have hoperation (ranks : Nat) : OperationLocated ranks ts :=
      operation_located_step hprimary fun us hu => (ih us hu).climb ranks
    have hexpression := expression_located_step (hoperation _) fun us hu => (ih us hu).expression
    have hlist := argumentList_located_step hexpression fun us hu => (ih us hu).argumentList
    exact
      { primary := hprimary
        climb := fun ranks => climb_located_step (fun us hu => (ih us hu).operation)
          fun us hu => (ih us hu).climb ranks
        operation := hoperation
        expression := hexpression
        argumentList := hlist
        arguments := arguments_located_step hlist }

/-- An expression fails at the first token at which no expression can go on. -/
theorem expression_located (ts : List Token) : ExpressionLocated ts := (allLocated ts).expression

/-! ## Declarations, statements and functions -/

private theorem ended_located {x : α} {derived : List Token → α → Prop}
    (h : ∀ semicolon : Token, semicolon.is .punct ";" → derived [semicolon] x)
    (ts : List Token) : Located (ended x) derived ts :=
  .single ⟨[someToken .punct ";"], x, by simp, h _ (someToken_is _ _)⟩ fun _ _ _ _ => .of_ok rfl

theorem declaration_located (ts : List Token) :
    Located (fun ts => outcome (declaration ts)) Declaration ts := by
  refine .congr outcome_declaration ?_
  refine .single ⟨[someToken .type "int", someToken .identifier "x", someToken .punct ";"], _,
    by simp, .plain rfl rfl (someToken_is _ _)⟩ ?_
  rintro type us rfl ht
  simp only [decide_eq_true_eq] at ht
  refine .single ⟨[someToken .identifier "x", someToken .punct ";"], _,
    by simp, .plain ht rfl (someToken_is _ _)⟩ ?_
  rintro name vs rfl hn
  simp only [decide_eq_true_eq] at hn
  refine .branch (fun us => (outcome (expression us)).andThen fun init rest =>
    ended (Node.decl type.lexeme name.lexeme init) rest) _ ?_
    fun _ => ended_located (fun _ hs => .plain ht hn hs) vs
  rintro equals ws rfl hq
  refine .andThen expression_exact byHead_closed (expression_located ws) ?_ ?_
  · intro used init he
    exact ⟨[someToken .punct ";"], _, by simp, .initialized ht hn hq he (someToken_is _ _)⟩
  · intro used init rest _ he _
    exact ended_located (fun _ hs => .initialized ht hn hq he hs) rest

theorem statement_located (ts : List Token) :
    Located (fun ts => outcome (statement ts)) Statement ts := by
  refine .congr outcome_statement ?_
  refine .branch (fun us => if next .punct ";" us then .ok (.ret .hole, us.tail)
    else (outcome (expression us)).andThen fun value rest => ended (Node.ret value) rest)
    (fun us => (outcome (expression us)).andThen fun e rest => ended (Node.expr e) rest) ?_ ?_
  · rintro word us rfl hw
    refine .branch (fun us => .ok (Node.ret .hole, us)) (fun us => (outcome (expression us)).andThen
      fun value rest => ended (Node.ret value) rest) (fun _ _ _ _ => .of_ok rfl) fun _ => ?_
    refine .andThen expression_exact byHead_closed (expression_located us) ?_ ?_
    · intro used value he
      exact ⟨[someToken .punct ";"], _, by simp, .valueReturn hw he (someToken_is _ _)⟩
    · intro used value rest _ he _
      exact ended_located (fun _ hs => .valueReturn hw he hs) rest
  · intro _
    refine .andThen expression_exact byHead_closed (expression_located ts) ?_ ?_
    · intro used e he
      exact ⟨[someToken .punct ";"], _, by simp, .expression he (someToken_is _ _)⟩
    · intro used e rest _ he _
      exact ended_located (fun _ hs => .expression he hs) rest

theorem item_located (ts : List Token) : Located (fun ts => outcome (item ts)) Item ts := by
  by_cases ht : ∃ t ∈ ts.head?, t.kind = .type
  · obtain ⟨t, hts, ht⟩ := ht
    refine .congr_head _ ?_ ((declaration_located ts).mono fun _ _ => .declaration)
    intro us hus
    obtain ⟨rest, rfl⟩ := List.head?_eq_some_iff.mp (hus.trans hts)
    simp [item, ht]
  · refine .congr_head _ ?_ ((statement_located ts).mono fun _ _ => .statement)
    intro us hus
    cases us with
    | nil => rfl
    | cons t rest =>
      have hk : t.kind ≠ .type := fun hk => ht ⟨t, hus.symm, hk⟩
      simp [item, hk]

theorem items_located (ts : List Token) :
    Located (fun ts => outcome (items ts)) (Enclosed "\x7d" Items) ts := by
  have hv : Viable (Enclosed "\x7d" Items) [] :=
    ⟨[someToken .punct "\x7d"], [], by simp, [], _, rfl, .nil, someToken_is _ _⟩
  induction ts using shorter_induction with
  | step ts ih =>
    rcases atEnd_or_cons ts with hend | ⟨t, rest, rfl, hend⟩
    · refine .of_error (.token .punct "\x7d") hv fun ts' h => outcome_items_of_atEnd ?_
      rwa [AtEnd, h]
    by_cases hb : t.is .punct "\x7d" = true
    · exact .of_ok (by rw [outcome_items_cons rest hend, if_pos hb])
    · refine .congr_head (fun us => (outcome (item us)).andThen fun head rest =>
        (outcome (items rest)).andThen fun tail rest => .ok (head :: tail, rest)) ?_ ?_
      · intro us hus
        obtain ⟨us, rfl⟩ := List.head?_eq_some_iff.mp hus
        exact (outcome_items_cons us hend).trans (if_neg hb)
      refine .andThen item_exact byHead_whatever (item_located _) ?_ ?_
      · intro used n hitem
        exact ⟨[someToken .punct "\x7d"], [n], by simp, used, _, rfl,
          by simpa using Items.cons hitem .nil, someToken_is _ _⟩
      · intro used n us hus hitem _
        have hshort : us.length < (t :: rest).length := by
          obtain ⟨u, vs, rfl, -⟩ := hitem.starts
          rw [hus, List.length_append, List.length_cons]
          omega
        refine (ih us hshort).map ?_
        rintro _ ns ⟨inner, brace, rfl, hitems, hb⟩
        exact ⟨used ++ inner, brace, by simp, .cons hitem hitems, hb⟩

private theorem functionRest_located {type name : Token} {whole : List Token → Node → Prop}
    (h : ∀ ⦃closing left right : Token⦄ ⦃us : List Token⦄ ⦃ns : List Node⦄,
      closing.is .punct ")" → left.is .punct "\x7b" → Items us ns → right.is .punct "\x7d" →
        whole (closing :: left :: (us ++ [right])) (.function type.lexeme name.lexeme [] ns))
    (ts : List Token) : Located (functionRest type name) whole ts := by
  have hclosing : Viable whole [] :=
    ⟨[someToken .punct ")", someToken .punct "\x7b", someToken .punct "\x7d"], _, by simp,
      h (someToken_is _ _) (someToken_is _ _) .nil (someToken_is _ _)⟩
  refine .single hclosing ?_
  rintro closing us rfl hc
  refine .single ⟨[someToken .punct "\x7b", someToken .punct "\x7d"], _, by simp,
    h hc (someToken_is _ _) .nil (someToken_is _ _)⟩ ?_
  rintro left vs rfl hl
  refine (items_located vs).map ?_
  rintro _ ns ⟨inner, right, rfl, hitems, hr⟩
  exact h hc hl hitems hr

/-- A function without items, to complete the start of a head. -/
private theorem function_of_head {type name opening : Token} (ht : type.kind = .type)
    (hn : name.kind = .identifier) (ho : opening.is .punct "(" = true) :
    Function [type, name, opening, someToken .punct ")", someToken .punct "\x7b",
      someToken .punct "\x7d"] (.function type.lexeme name.lexeme [] []) :=
  .intro ht hn ho .none (someToken_is _ _) (someToken_is _ _) .nil (someToken_is _ _)

theorem function_located (ts : List Token) :
    Located (fun ts => outcome (function ts)) Function ts := by
  refine .congr outcome_function ?_
  have htype : (someToken .type "int").kind = .type := rfl
  have hname : (someToken .identifier "f").kind = .identifier := rfl
  have hopen := someToken_is .punct "("
  refine .single ⟨_, _, ?_, function_of_head htype hname hopen⟩ ?_
  · simp
  rintro type us rfl ht
  simp only [decide_eq_true_eq] at ht
  refine .single ⟨_, _, ?_, function_of_head ht hname hopen⟩ ?_
  · simp
  rintro name vs rfl hn
  simp only [decide_eq_true_eq] at hn
  refine .single ⟨_, _, ?_, function_of_head ht hn hopen⟩ ?_
  · simp
  rintro opening ws rfl ho
  refine .branch (functionRest type name) (functionRest type name) ?_ ?_
  · rintro void xs rfl hv
    exact functionRest_located (fun _ _ _ _ _ hc hl hi hr => .intro ht hn ho (.void hv) hc hl hi hr)
      xs
  · exact fun _ => functionRest_located
      (fun _ _ _ _ _ hc hl hi hr => .intro ht hn ho .none hc hl hi hr) ws

/-- The outcome of reading functions, which leaves nothing. -/
def allFunctions (ts : List Token) : Outcome (List Node) := (functions ts).map fun fs => (fs, [])

theorem allFunctions_cons_type {t : Token} (rest : List Token) (ht : t.kind = .type) :
    allFunctions (t :: rest) =
      (outcome (function (t :: rest))).andThen fun head rest =>
        (allFunctions rest).andThen fun tail rest => .ok (head :: tail, rest) := by
  rw [allFunctions, functions_cons_type rest ht]
  cases outcome (function (t :: rest)) with
  | error fault => rfl
  | ok p =>
    obtain ⟨head, us⟩ := p
    simp only [Outcome.andThen_ok, allFunctions]
    cases functions us with
    | error fault => rfl
    | ok tail => rfl

theorem functions_located (ts : List Token) : Located allFunctions Functions ts := by
  induction ts using shorter_induction with
  | step ts ih =>
    rcases atEnd_or_cons ts with hend | ⟨t, rest, rfl, hend⟩
    · exact .of_ok (by rw [allFunctions, functions_of_atEnd hend]; rfl)
    · by_cases ht : t.kind = .type
      · refine .congr_head (fun us => (outcome (function us)).andThen fun head rest =>
          (allFunctions rest).andThen fun fs rest => .ok (head :: fs, rest)) ?_ ?_
        · intro us hus
          obtain ⟨us, rfl⟩ := List.head?_eq_some_iff.mp hus
          exact allFunctions_cons_type us ht
        · refine .andThen function_exact byHead_whatever (function_located _) ?_ ?_
          · intro used f hf
            exact ⟨[], [f], by simp, .cons hf .nil⟩
          · intro used f us hus hf _
            have hshort : us.length < (t :: rest).length := by
              obtain ⟨u, vs, rfl, -⟩ := hf.starts
              rw [hus, List.length_append, List.length_cons]
              omega
            exact (ih us hshort).map fun _ _ hfs => .cons hf hfs
      · have hskip (us : List Token) : allFunctions (t :: us) = allFunctions us := by
          simp only [allFunctions, functions_cons_skip us hend ht]
        refine .cons (.congr hskip ?_)
        exact (ih rest (Nat.lt_succ_self _)).mono fun _ _ hfs => .skip ht hfs

/-! ## Syntax errors -/

/-- A syntax error in some tokens stands at an index of them: at the token of this index, or
behind the last token, it says what was found there and on which line; the tokens before the
index can be completed to a program; and whatever follows the token at the index, the error is
the same. -/
structure ErrorAt (ts : List Token) (source : Text.Bytes) (e : SyntaxError) (k : Nat) : Prop where
  le_length : k ≤ ts.length
  got : e.got = ts[k]?
  found : ∀ t, ts[k]? = some t → e.gotText = t.describe ∧ e.line = t.line
  ended : k = ts.length → e.gotText = "end of file" ∧ ∃ t, ts.getLast? = some t ∧ e.line = t.line
  viable : ∃ us program, parse (ts.take k ++ us) source = .ok program
  dead : k < ts.length → ∀ vs, parse (ts.take (k + 1) ++ vs) source = .error e

/-- No token at which nothing can go on stands in the start of a program. -/
theorem ErrorAt.le {source : Text.Bytes} {e e' : SyntaxError} {k k' : Nat}
    (h : ErrorAt ts source e k) (h' : ErrorAt ts source e' k') : k' ≤ k := by
  refine Nat.le_of_not_lt fun hlt => ?_
  obtain ⟨us, program, hok⟩ := h'.viable
  have hk : k + 1 ≤ k' := by omega
  have hsplit := (List.take_append_drop (k + 1) (ts.take k')).symm
  rw [List.take_take, Nat.min_eq_left hk] at hsplit
  rw [hsplit, List.append_assoc, h.dead (by have := h'.le_length; omega)] at hok
  cases hok

theorem parse_eq_error_iff {source : Text.Bytes} {e : SyntaxError} :
    parse ts source = .error e ↔
      ∃ fault, functions ts = .error fault ∧ e = .ofFault ts source fault := by
  rw [parse]
  cases functions ts with
  | error fault => simp [eq_comm]
  | ok decls => simp

/-- An error at a token is on the line of this token, whatever stands before and behind it. -/
private theorem ofFault_cons {t : Token} (ht : t.kind ≠ .eof) (ts : List Token)
    (source : Text.Bytes) (expected : Expected) (rest : List Token) :
    SyntaxError.ofFault ts source ⟨expected, t :: rest⟩ =
      { expected, got := some t, line := t.line, snippet := Text.snippet source t.line } := by
  have hgot : (some t).filter (·.kind != .eof) = some t := by simp [ht]
  simp only [SyntaxError.ofFault, List.head?_cons, hgot]

/-- The fault in some tokens gives the index of the error they raise. -/
private theorem errorAt_length_of_fault {before rest : List Token} {source : Text.Bytes}
    {expected : Expected} (hend : ∀ t ∈ before ++ rest, t.kind ≠ .eof) (hne : before ++ rest ≠ [])
    (hviable : Viable Functions before)
    (hdead : ∀ t us, rest = t :: us →
      ∀ after, allFunctions (before ++ t :: after) = .error ⟨expected, t :: after⟩) :
    ErrorAt (before ++ rest) source (.ofFault (before ++ rest) source ⟨expected, rest⟩)
      before.length where
  le_length := by simp
  got := by
    rw [List.getElem?_append_right (Nat.le_refl _), Nat.sub_self, ← List.head?_eq_getElem?]
    cases rest with
    | nil => rfl
    | cons t us =>
      have ht : t.kind ≠ .eof := hend t (by simp)
      rw [ofFault_cons ht]
      rfl
  found t ht := by
    rw [List.getElem?_append_right (Nat.le_refl _), Nat.sub_self, ← List.head?_eq_getElem?] at ht
    obtain ⟨us, rfl⟩ := List.head?_eq_some_iff.mp ht
    have ht : t.kind ≠ .eof := hend t (by simp)
    rw [ofFault_cons ht]
    exact ⟨rfl, rfl⟩
  ended hlen := by
    obtain rfl : rest = [] := by simpa using hlen
    have hlast := List.getLast?_eq_some_getLast hne
    rw [List.append_nil] at hend
    refine ⟨rfl, _, hlast, ?_⟩
    exact SyntaxError.endLine_of_getLast? hend (by simpa using hlast) []
  viable := by
    obtain ⟨after, fs, hafter, hderived⟩ := hviable
    have hwhole : ∀ t ∈ before ++ after, t.kind ≠ .eof := by
      intro t ht
      rcases List.mem_append.mp ht with ht | ht
      · exact hend t (List.mem_append_left _ ht)
      · exact hafter t ht
    refine ⟨after, ⟨fs⟩, ?_⟩
    rw [List.take_left, parse, functions_of_derived hderived hwhole]
  dead hlt vs := by
    obtain ⟨t, us, rfl⟩ : ∃ t us, rest = t :: us :=
      List.exists_cons_of_length_pos (by simpa using hlt)
    have ht : t.kind ≠ .eof := hend t (by simp)
    have htake : (before ++ t :: us).take (before.length + 1) = before ++ [t] := by
      rw [List.append_cons]
      exact List.take_left' (by simp)
    have hfault : functions (before ++ t :: vs) = .error ⟨expected, t :: vs⟩ := by
      have h := hdead t us rfl vs
      rw [allFunctions] at h
      cases hf : functions (before ++ t :: vs) with
      | ok fs => simp [hf, Except.map] at h
      | error fault' => simpa [hf, Except.map] using h
    rw [htake, List.append_assoc, List.singleton_append, parse_eq_error_iff]
    exact ⟨_, hfault, by rw [ofFault_cons ht, ofFault_cons ht]⟩

/-- A syntax error stands somewhere. -/
theorem exists_errorAt {source : Text.Bytes} {e : SyntaxError} (hend : ∀ t ∈ ts, t.kind ≠ .eof)
    (h : parse ts source = .error e) : ∃ k, ErrorAt ts source e k := by
  obtain ⟨fault, hfault, rfl⟩ := parse_eq_error_iff.mp h
  have hne : ts ≠ [] := by
    rintro rfl
    rw [functions] at hfault
    cases hfault
  obtain ⟨before, rfl, hviable, hdead⟩ :=
    functions_located ts (by rw [allFunctions, hfault]; rfl)
  exact ⟨before.length, errorAt_length_of_fault hend hne hviable hdead⟩

/-- A syntax error stands at the first token at which no program can go on: there is exactly one
index at which it can stand. -/
theorem existsUnique_errorAt {source : Text.Bytes} {e : SyntaxError}
    (hend : ∀ t ∈ ts, t.kind ≠ .eof) (h : parse ts source = .error e) :
    ∃! k, ErrorAt ts source e k := by
  obtain ⟨k, hk⟩ := exists_errorAt hend h
  refine ⟨k, hk, fun k' hk' => ?_⟩
  exact Nat.le_antisymm (hk.le hk') (hk'.le hk)

/-- A declaration where a function has to stand fails at its semicolon. -/
theorem existsUnique_errorAt_declaration :
    ∃ e, parse [someToken .type "int", someToken .identifier "x", someToken .punct ";"] [] =
        .error e ∧
      ∃! k, ErrorAt [someToken .type "int", someToken .identifier "x", someToken .punct ";"] [] e
        k := by
  have h : parse [someToken .type "int", someToken .identifier "x", someToken .punct ";"] [] =
      .error (.ofFault [someToken .type "int", someToken .identifier "x", someToken .punct ";"] []
        ⟨.token .punct "(", [someToken .punct ";"]⟩) := by
    rw [parse_eq_error_iff]
    refine ⟨_, ?_, rfl⟩
    have hsign : (";" : Text.Bytes) ≠ "(" := by decide
    simp [functions, function, ofKind, exactly, Parsed.leaving, someToken, Token.is, hsign]
  exact ⟨_, h, existsUnique_errorAt (by simp) h⟩

end MiniC.Parse
