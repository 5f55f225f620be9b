import MiniC.Proofs.Parse.Completeness
import MiniC.Proofs.Parse.End

/-!
# Deriving what was read

Whatever a parser returns, its rule of the grammar derives from the tokens that
it took, and the tokens that it left cannot prolong what it read. Together with
completeness this determines every success of every parser.

The invariant of climbing is that the left operand is an operation of some rank
and that no operator tighter than that rank comes next. An operator at hand is
then at least as loose as everything read so far, which may stand to its left.
-/

namespace MiniC.Parse

open Grammar

/-- What is read from some tokens is derived from the tokens taken, and what is left follows. -/
def Sound {α : Type} (read : List Token → Outcome α) (derived : List Token → α → Prop)
    (follow : List Token → List Token → Prop) (ts : List Token) : Prop :=
  ∀ ⦃x : α⦄ ⦃rest : List Token⦄, read ts = .ok (x, rest) →
    ∃ used, ts = used ++ rest ∧ derived used x ∧ follow used rest

/-- Exactly what a rule derives is read, up to tokens that may follow it. -/
structure Exact {α : Type} (read : List Token → Outcome α) (derived : List Token → α → Prop)
    (follow : List Token → List Token → Prop) : Prop where
  sound : ∀ ts, Sound read derived follow ts
  complete : ∀ ⦃used rest : List Token⦄ ⦃x : α⦄, derived used x → follow used rest →
    read (used ++ rest) = .ok (x, rest)

/-- Nothing that follows matters, as behind a closing bracket. -/
def Whatever (_ _ : List Token) : Prop := True

/-- What is read by climbing from some tokens, behind an operation that stands on its left, is
an operation below the bound. -/
def ClimbSound (ranks : Nat) (ts : List Token) : Prop :=
  ∀ ⦃rank : Nat⦄ ⦃before : List Token⦄ ⦃left e : Expr⦄ ⦃rest : List Token⦄,
    Operation rank before left → rank ≤ ranks → Parted before ts →
      (∀ t ∈ ts.head?, ∀ rank', Joins rank' t → rank ≤ rank' + 1) →
        outcome (climb ranks left ts) = .ok (e, rest) →
          ∃ used, ts = used ++ rest ∧ Operation ranks (before ++ used) e ∧
            Parted (before ++ used) rest ∧ Loose ranks rest

/-- Something derived, together with a closing bracket or brace. -/
def Enclosed {α : Type} (lexeme : String) (derived : List Token → α → Prop) (used : List Token)
    (x : α) : Prop :=
  ∃ ts closing, used = ts ++ [closing] ∧ derived ts x ∧ closing.is .punct lexeme

abbrev PrimarySound : List Token → Prop :=
  Sound (fun ts => outcome (primary ts)) Primary Parted

abbrev OperationSound (ranks : Nat) : List Token → Prop :=
  Sound (fun ts => outcome (operation ranks ts)) (Operation ranks)
    fun used rest => Parted used rest ∧ Loose ranks rest

abbrev ExpressionSound : List Token → Prop :=
  Sound (fun ts => outcome (expression ts)) Expression Closed

abbrev ArgumentListSound : List Token → Prop :=
  Sound (fun ts => outcome (argumentList ts)) (Enclosed ")" ArgumentList) Whatever

abbrev ArgumentsSound : List Token → Prop :=
  Sound (fun ts => outcome (arguments ts)) (Enclosed ")" Arguments) Whatever

theorem loose_or_joins (ranks : Nat) (ts : List Token) :
    Loose ranks ts ∨ ∃ t rest rank, ts = t :: rest ∧ Joins rank t ∧ rank < ranks := by
  by_cases h : Loose ranks ts
  · exact .inl h
  · simp only [Loose, Classical.not_forall, Classical.not_not] at h
    obtain ⟨t, ht, rank, hr, hj⟩ := h
    obtain ⟨rest, rfl⟩ := List.head?_eq_some_iff.mp ht
    exact .inr ⟨t, rest, rank, rfl, hj, hr⟩

section Steps

variable {ts : List Token}

private theorem climb_sound_step {ranks : Nat}
    (ho : ∀ us : List Token, us.length < ts.length → ∀ rank, OperationSound rank us)
    (hc : ∀ us : List Token, us.length < ts.length → ClimbSound ranks us) :
    ClimbSound ranks ts := by
  intro rank before left e rest hleft hr hp hnext h
  rcases loose_or_joins ranks ts with hl | ⟨t, us, rank', rfl, hj, hlt⟩
  · rw [outcome_climb_of_loose left hl] at h
    cases h
    refine ⟨[], rfl, ?_, ?_, hl⟩
    · rw [List.append_nil]
      exact hleft.mono hr
    · rwa [List.append_nil]
  · rw [outcome_climb_of_joins left us hj hlt, Outcome.andThen_eq_ok_iff] at h
    obtain ⟨right, vs, hright, h⟩ := h
    obtain ⟨operand, rfl, hop, hpv, hlv⟩ := ho us (Nat.lt_succ_self _) rank' hright
    -- the operator is no tighter than the left operand, so both make an operation of its rank
    have hwhole := (hleft.mono (hnext t rfl rank' hj)).snoc hj hop
    have hpw : Parted (before ++ t :: operand) vs := by
      simpa using hpv.append hop.ne_nil (before ++ [t])
    have hnextv : ∀ t ∈ vs.head?, ∀ rank'', Joins rank'' t → rank' + 1 ≤ rank'' + 1 := by
      intro u hu rank'' hju
      exact Nat.succ_le_succ (Nat.le_of_not_lt fun hlt => hlv u hu rank'' hlt hju)
    have hshort : vs.length < (t :: (operand ++ vs)).length := by
      simp only [List.length_cons, List.length_append]
      omega
    obtain ⟨used, rfl, hres⟩ := hc vs hshort hwhole hlt hpw hnextv h
    exact ⟨t :: operand ++ used, by simp, by simpa using hres⟩

private theorem operation_sound_step {ranks : Nat} (hp : PrimarySound ts)
    (hc : ∀ us : List Token, us.length < ts.length → ClimbSound ranks us) :
    OperationSound ranks ts := by
  intro e rest h
  change outcome (operation ranks ts) = .ok (e, rest) at h
  rw [outcome_operation, Outcome.andThen_eq_ok_iff] at h
  obtain ⟨first, us, hfirst, h⟩ := h
  have hshort := outcome_shorter hfirst
  obtain ⟨operand, rfl, hprim, hpu⟩ := hp hfirst
  obtain ⟨used, rfl, hop, hrest⟩ := hc us hshort (.primary hprim) (Nat.zero_le _) hpu
    (fun _ _ _ _ => Nat.zero_le _) h
  exact ⟨operand ++ used, by simp, hop, hrest⟩

private theorem expression_sound_step (ho : OperationSound Operator.ranks ts)
    (he : ∀ us : List Token, us.length < ts.length → ExpressionSound us) :
    ExpressionSound ts := by
  intro e rest h
  change outcome (expression ts) = .ok (e, rest) at h
  rw [outcome_expression, Outcome.andThen_eq_ok_iff] at h
  obtain ⟨left, us, hleft, h⟩ := h
  have hshort := outcome_shorter hleft
  obtain ⟨operand, rfl, hop, hpu, hlu⟩ := ho hleft
  by_cases hq : next .operator "=" us = true
  · obtain ⟨equals, vs, rfl, he'⟩ := eq_cons_of_next hq
    simp only [hq, if_true, List.tail_cons, Outcome.andThen_eq_ok_iff] at h
    obtain ⟨right, ws, hright, h⟩ := h
    obtain ⟨used, rfl, hexp, hcl⟩ := he vs (Nat.lt_of_succ_lt hshort) hright
    cases h
    have hpw : Parted (operand ++ equals :: used) rest := by
      simpa using hcl.parted.append hexp.ne_nil (operand ++ [equals])
    exact ⟨operand ++ equals :: used, by simp, .assignment hop hq hexp, hpw, hcl.loose,
      hcl.unassigned⟩
  · simp only [hq] at h
    cases h
    exact ⟨operand, rfl, .operation hop, hpu, hlu, by simpa using hq⟩

private theorem primary_sound_step
    (he : ∀ us : List Token, us.length < ts.length → ExpressionSound us)
    (ha : ∀ us : List Token, us.length < ts.length →
      ArgumentsSound us) :
    PrimarySound ts := by
  intro e rest h
  change outcome (primary ts) = .ok (e, rest) at h
  cases ts with
  | nil =>
    rw [outcome_primary_nil] at h
    cases h
  | cons t us =>
    rw [outcome_primary_cons] at h
    split at h
    · rename_i hk
      cases h
      exact ⟨[t], rfl, .number hk, .of_kind_ne (by simp [hk]) [] rest⟩
    split at h
    · rename_i hk
      cases h
      exact ⟨[t], rfl, .string hk, .of_kind_ne (by simp [hk]) [] rest⟩
    split at h
    · rename_i hk
      split at h
      · rename_i hn
        obtain ⟨opening, vs, rfl, hn⟩ := eq_cons_of_next hn
        rw [Outcome.andThen_eq_ok_iff] at h
        obtain ⟨args, ws, hargs, h⟩ := h
        cases h
        have hshort : vs.length < (t :: opening :: vs).length := by
          simp only [List.length_cons]
          omega
        obtain ⟨_, rfl, ⟨inner, closing, rfl, hargs, hc⟩, -⟩ := ha vs hshort hargs
        exact ⟨t :: opening :: (inner ++ [closing]), rfl, .call hk hn hargs hc,
          .of_kind_ne (by simp [Token.kind_of_is hc]) (t :: opening :: inner) rest⟩
      · rename_i hn
        cases h
        refine ⟨[t], rfl, .name hk, ?_⟩
        rintro _ ⟨⟩ u hu -
        obtain ⟨vs, rfl⟩ := List.head?_eq_some_iff.mp hu
        simpa using hn
    split at h
    · rename_i hb
      rw [Outcome.andThen_eq_ok_iff] at h
      obtain ⟨inner, vs, hinner, h⟩ := h
      rw [Outcome.andThen_eq_ok_iff] at h
      obtain ⟨closing, ws, hclosing, h⟩ := h
      cases h
      obtain ⟨used, rfl, hexp, -⟩ := he us (Nat.lt_succ_self _) hinner
      obtain ⟨rfl, hc⟩ := single_eq_ok_iff.mp hclosing
      exact ⟨t :: (used ++ [closing]), by simp, .bracket hb hexp hc,
        .of_kind_ne (by simp [Token.kind_of_is hc]) (t :: used) rest⟩
    · cases h

private theorem argumentList_sound_step (he : ExpressionSound ts)
    (ha : ∀ us : List Token, us.length < ts.length →
      ArgumentListSound us) :
    ArgumentListSound ts := by
  intro args rest h
  change outcome (argumentList ts) = .ok (args, rest) at h
  rw [outcome_argumentList, Outcome.andThen_eq_ok_iff] at h
  obtain ⟨arg, us, harg, h⟩ := h
  have hshort := outcome_shorter harg
  obtain ⟨used, rfl, hexp, -⟩ := he harg
  split at h
  · rename_i hn
    obtain ⟨comma, vs, rfl, hn⟩ := eq_cons_of_next hn
    rw [Outcome.andThen_eq_ok_iff] at h
    obtain ⟨more, ws, hmore, h⟩ := h
    cases h
    obtain ⟨_, rfl, ⟨inner, closing, rfl, hargs, hc⟩, -⟩ := ha vs (Nat.lt_of_succ_lt hshort) hmore
    exact ⟨used ++ comma :: (inner ++ [closing]), by simp,
      ⟨used ++ comma :: inner, closing, by simp, .more hexp hn hargs, hc⟩, trivial⟩
  · rw [Outcome.andThen_eq_ok_iff] at h
    obtain ⟨closing, vs, hclosing, h⟩ := h
    cases h
    obtain ⟨rfl, hc⟩ := single_eq_ok_iff.mp hclosing
    exact ⟨used ++ [closing], by simp, ⟨used, closing, rfl, .last hexp, hc⟩, trivial⟩

private theorem arguments_sound_step
    (ha : ArgumentListSound ts) :
    ArgumentsSound ts := by
  intro args rest h
  change outcome (arguments ts) = .ok (args, rest) at h
  rw [outcome_arguments] at h
  split at h
  · rename_i hn
    obtain ⟨closing, vs, rfl, hn⟩ := eq_cons_of_next hn
    cases h
    exact ⟨[closing], rfl, ⟨[], closing, rfl, .none, hn⟩, trivial⟩
  · obtain ⟨_, rfl, ⟨inner, closing, rfl, hargs, hc⟩, -⟩ := ha h
    exact ⟨inner ++ [closing], rfl, ⟨inner, closing, rfl, .some hargs, hc⟩, trivial⟩

end Steps

/-- All parsers of expressions are sound. -/
private structure AllSound (ts : List Token) : Prop where
  primary : PrimarySound ts
  climb : ∀ ranks, ClimbSound ranks ts
  operation : ∀ ranks, OperationSound ranks ts
  expression : ExpressionSound ts
  argumentList : ArgumentListSound ts
  arguments : ArgumentsSound ts

private theorem allSound (ts : List Token) : AllSound ts := by
  -- on the number of tokens: what a parser calls on all of them comes earlier in the list
  induction ts using shorter_induction with
  | step ts ih =>
    have hprimary := primary_sound_step (fun us hu => (ih us hu).expression)
      (fun us hu => (ih us hu).arguments)
    have hoperation (ranks : Nat) : OperationSound ranks ts :=
      operation_sound_step hprimary fun us hu => (ih us hu).climb ranks
    have hexpression := expression_sound_step (hoperation _) fun us hu => (ih us hu).expression
    have hlist := argumentList_sound_step hexpression fun us hu => (ih us hu).argumentList
    exact
      { primary := hprimary
        climb := fun ranks => climb_sound_step (fun us hu => (ih us hu).operation)
          fun us hu => (ih us hu).climb ranks
        operation := hoperation
        expression := hexpression
        argumentList := hlist
        arguments := arguments_sound_step hlist }

theorem primary_exact : Exact (fun ts => outcome (primary ts)) Primary Parted where
  sound ts := (allSound ts).primary
  complete _ _ _ h hp := outcome_primary_of_derived h hp

theorem operation_exact (ranks : Nat) :
    Exact (fun ts => outcome (operation ranks ts)) (Operation ranks)
      fun used rest => Parted used rest ∧ Loose ranks rest where
  sound ts := (allSound ts).operation ranks
  complete _ _ _ h hf := outcome_operation_of_derived h hf.1 hf.2

/-- An expression is read exactly where the grammar derives it, up to a token that does not
prolong it. -/
theorem expression_exact : Exact (fun ts => outcome (expression ts)) Expression Closed where
  sound ts := (allSound ts).expression
  complete _ _ _ h hc := outcome_expression_of_derived h hc

/-! ## Declarations, statements and functions -/

private theorem ended_eq_ok_iff {α : Type} {x y : α} {ts rest : List Token} :
    ended x ts = .ok (y, rest) ↔
      x = y ∧ ∃ semicolon, ts = semicolon :: rest ∧ semicolon.is .punct ";" := by
  simp only [ended, Outcome.andThen_eq_ok_iff, single_eq_ok_iff, Except.ok.injEq, Prod.mk.injEq]
  constructor
  · rintro ⟨semicolon, _, ⟨rfl, hs⟩, rfl, rfl⟩
    exact ⟨rfl, semicolon, rfl, hs⟩
  · rintro ⟨rfl, semicolon, rfl, hs⟩
    exact ⟨semicolon, rest, ⟨rfl, hs⟩, rfl, rfl⟩

theorem declaration_exact :
    Exact (fun ts => outcome (declaration ts)) Declaration Whatever where
  sound := by
    intro ts n rest h
    simp only [outcome_declaration, Outcome.andThen_eq_ok_iff, single_eq_ok_iff,
      decide_eq_true_eq] at h
    obtain ⟨type, _, ⟨rfl, ht⟩, name, us, ⟨rfl, hn⟩, h⟩ := h
    split at h
    · rename_i hq
      obtain ⟨equals, us, rfl, hk⟩ := eq_cons_of_next hq
      obtain ⟨init, vs, hinit, hend⟩ := Outcome.andThen_eq_ok_iff.mp h
      obtain ⟨rfl, semicolon, rfl, hs⟩ := ended_eq_ok_iff.mp hend
      obtain ⟨used, hused, he, -⟩ := expression_exact.sound _ hinit
      rw [List.tail_cons] at hused
      exact ⟨type :: name :: equals :: (used ++ [semicolon]), by simp [hused],
        .initialized ht hn hk he hs, trivial⟩
    · obtain ⟨rfl, semicolon, rfl, hs⟩ := ended_eq_ok_iff.mp h
      exact ⟨[type, name, semicolon], rfl, .plain ht hn hs, trivial⟩
  complete _ rest _ h _ := outcome_declaration_of_derived h rest

theorem statement_exact : Exact (fun ts => outcome (statement ts)) Statement Whatever where
  sound := by
    intro ts n rest h
    change outcome (statement ts) = .ok (n, rest) at h
    rw [outcome_statement] at h
    split at h
    · rename_i hw
      obtain ⟨word, us, rfl, hk⟩ := eq_cons_of_next hw
      rw [List.tail_cons] at h
      split at h
      · rename_i hs
        obtain ⟨semicolon, vs, rfl, hs⟩ := eq_cons_of_next hs
        cases h
        exact ⟨[word, semicolon], rfl, .bareReturn hk hs, trivial⟩
      · obtain ⟨value, vs, hv, hend⟩ := Outcome.andThen_eq_ok_iff.mp h
        obtain ⟨rfl, semicolon, rfl, hs⟩ := ended_eq_ok_iff.mp hend
        obtain ⟨used, rfl, he, -⟩ := expression_exact.sound _ hv
        exact ⟨word :: (used ++ [semicolon]), by simp, .valueReturn hk he hs, trivial⟩
    · obtain ⟨e, vs, hread, hend⟩ := Outcome.andThen_eq_ok_iff.mp h
      obtain ⟨rfl, semicolon, rfl, hs⟩ := ended_eq_ok_iff.mp hend
      obtain ⟨used, rfl, he, -⟩ := expression_exact.sound _ hread
      exact ⟨used ++ [semicolon], by simp, .expression he hs, trivial⟩
  complete _ rest _ h _ := outcome_statement_of_derived h rest

theorem item_exact : Exact (fun ts => outcome (item ts)) Item Whatever where
  sound := by
    intro ts n rest h
    rcases outcome_item ts with hi | hi
    · obtain ⟨used, rfl, hd, -⟩ := declaration_exact.sound ts (hi.symm.trans h)
      exact ⟨used, rfl, .declaration hd, trivial⟩
    · obtain ⟨used, rfl, hs, -⟩ := statement_exact.sound ts (hi.symm.trans h)
      exact ⟨used, rfl, .statement hs, trivial⟩
  complete _ rest _ h _ := outcome_item_of_derived h rest

private theorem items_sound (ts : List Token) :
    Sound (fun ts => outcome (items ts)) (Enclosed "\x7d" Items) Whatever ts := by
  induction ts using shorter_induction with
  | step ts ih =>
    intro ns rest h
    change outcome (items ts) = .ok (ns, rest) at h
    rcases atEnd_or_cons ts with hend | ⟨t, us, rfl, hend⟩
    · rw [outcome_items_of_atEnd hend] at h
      cases h
    · rw [outcome_items_cons us hend] at h
      split at h
      · rename_i ht
        cases h
        exact ⟨[t], rfl, ⟨[], t, rfl, .nil, ht⟩, trivial⟩
      · simp only [Outcome.andThen_eq_ok_iff] at h
        obtain ⟨head, vs, hhead, tail, _, htail, h⟩ := h
        cases h
        have hshort := outcome_shorter hhead
        obtain ⟨_, rfl, ⟨used, brace, rfl, hitems, hb⟩, -⟩ := ih vs hshort htail
        obtain ⟨first, hfirst, hitem, -⟩ := item_exact.sound _ hhead
        exact ⟨first ++ (used ++ [brace]), by simp [hfirst],
          ⟨first ++ used, brace, by simp, .cons hitem hitems, hb⟩, trivial⟩

theorem items_exact : Exact (fun ts => outcome (items ts)) (Enclosed "\x7d" Items) Whatever where
  sound := items_sound
  complete := by
    rintro _ rest ns ⟨ts, brace, rfl, h, hb⟩ -
    rw [List.append_assoc]
    exact outcome_items_of_derived h hb rest

private theorem functionRest_sound {type name : Token} {ts rest : List Token} {f : Node}
    (h : functionRest type name ts = .ok (f, rest)) :
    ∃ closing left right us ns, ts = closing :: left :: (us ++ right :: rest) ∧
      closing.is .punct ")" ∧ left.is .punct "\x7b" ∧ Items us ns ∧ right.is .punct "\x7d" ∧
        f = .function type.lexeme name.lexeme [] ns := by
  simp only [functionRest, Outcome.andThen_eq_ok_iff, single_eq_ok_iff] at h
  obtain ⟨closing, _, ⟨rfl, hc⟩, left, _, ⟨rfl, hl⟩, ns, _, hbody, h⟩ := h
  cases h
  obtain ⟨_, rfl, ⟨us, right, rfl, hitems, hr⟩, -⟩ := items_exact.sound _ hbody
  exact ⟨closing, left, right, us, ns, by simp, hc, hl, hitems, hr, rfl⟩

theorem function_exact : Exact (fun ts => outcome (function ts)) Function Whatever where
  sound := by
    intro ts f rest h
    simp only [outcome_function, Outcome.andThen_eq_ok_iff, single_eq_ok_iff,
      decide_eq_true_eq] at h
    obtain ⟨type, _, ⟨rfl, ht⟩, name, _, ⟨rfl, hn⟩, opening, us, ⟨rfl, ho⟩, h⟩ := h
    split at h
    · rename_i hv
      obtain ⟨void, us, rfl, hv⟩ := eq_cons_of_next hv
      obtain ⟨closing, left, right, vs, ns, hvs, hc, hl, hi, hr, rfl⟩ := functionRest_sound h
      rw [List.tail_cons] at hvs
      exact ⟨type :: name :: opening :: ([void] ++ closing :: left :: (vs ++ [right])),
        by simp [hvs], .intro ht hn ho (.void hv) hc hl hi hr, trivial⟩
    · obtain ⟨closing, left, right, vs, ns, rfl, hc, hl, hi, hr, rfl⟩ := functionRest_sound h
      exact ⟨type :: name :: opening :: ([] ++ closing :: left :: (vs ++ [right])),
        by simp, .intro ht hn ho .none hc hl hi hr, trivial⟩
  complete _ rest _ h _ := outcome_function_of_derived h rest

/-- A token list without end tokens is read as functions exactly if the grammar derives them from
it. -/
theorem functions_eq_ok_iff {ts : List Token} {fs : List Node} (hend : ∀ t ∈ ts, t.kind ≠ .eof) :
    functions ts = .ok fs ↔ Functions ts fs := by
  constructor
  · intro h
    induction ts using shorter_induction generalizing fs with
    | step ts ih =>
      cases ts with
      | nil =>
        rw [functions] at h
        cases h
        exact .nil
      | cons t us =>
        obtain ⟨ht, hus⟩ := List.forall_mem_cons.mp hend
        by_cases htype : t.kind = .type
        · rw [functions_cons_type us htype] at h
          cases hf : outcome (function (t :: us)) with
          | error fault => simp [hf] at h
          | ok p =>
            obtain ⟨head, vs⟩ := p
            have hshort := outcome_shorter hf
            simp only [hf] at h
            cases htail : functions vs with
            | error fault =>
              rw [htail] at h
              cases h
            | ok tail =>
              rw [htail] at h
              cases h
              obtain ⟨used, hused, hhead, -⟩ := function_exact.sound _ hf
              rw [hused] at hend ⊢
              exact .cons hhead
                (ih vs hshort (fun t ht => hend t (List.mem_append_right used ht)) htail)
        · rw [functions_cons_skip us ht htype] at h
          exact .skip htype (ih us (Nat.lt_succ_self _) hus h)
  · exact fun h => functions_of_derived h hend

/-- No token list derives two programs. -/
theorem functions_unique {ts : List Token} {fs fs' : List Node} (h : Functions ts fs)
    (h' : Functions ts fs') : fs = fs' := by
  induction h generalizing fs' with
  | nil =>
    generalize hts : ([] : List Token) = ts at h'
    cases h' with
    | nil => rfl
    | cons hf _ =>
      obtain ⟨t, us, rfl, -⟩ := hf.starts
      cases hts
    | skip _ _ => cases hts
  | @cons used us f fs hf _ ih =>
    generalize hts : used ++ us = ts at h'
    cases h' with
    | nil =>
      obtain ⟨t, vs, rfl, -⟩ := hf.starts
      cases hts
    | cons hf' hfs' =>
      -- Both functions are what the parser reads first.
      have hread := outcome_function_of_derived hf us
      rw [hts, outcome_function_of_derived hf'] at hread
      cases hread
      rw [ih hfs']
    | skip ht _ =>
      obtain ⟨t, vs, rfl, htype⟩ := hf.starts
      cases hts
      exact absurd htype ht
  | @skip t us fs ht _ ih =>
    generalize hts : t :: us = ts at h'
    cases h' with
    | nil => cases hts
    | cons hf _ =>
      obtain ⟨u, vs, rfl, htype⟩ := hf.starts
      cases hts
      exact absurd htype ht
    | skip _ hfs' =>
      cases hts
      exact ih hfs'

/-- The programs are what the grammar derives from the tokens up to the first end token. -/
theorem parse_eq_ok_iff {tokens : List Token} {source : Text.Bytes} {program : Program} :
    parse tokens source = .ok program ↔ Functions (beforeEnd tokens) program.decls := by
  rw [← functions_eq_ok_iff fun t => kind_of_mem_beforeEnd, ← functions_eq_ok_beforeEnd, parse]
  cases functions tokens with
  | error fault => simp
  | ok decls =>
    simp only [Except.ok.injEq]
    constructor
    · rintro rfl
      rfl
    · rintro rfl
      rfl

/-- Exactly the token lists that the grammar derives, up to their first end token, are programs,
and the program is the tree that they derive. No token list derives two. -/
theorem parse_eq_ok_iff_derived (tokens : List Token) (source : Text.Bytes) (program : Program) :
    (parse tokens source = .ok program ↔ Functions (beforeEnd tokens) program.decls) ∧
      ∀ (ts : List Token) (fs fs' : List Node), Functions ts fs → Functions ts fs' → fs = fs' :=
  ⟨parse_eq_ok_iff, fun _ _ _ => functions_unique⟩

end MiniC.Parse

namespace MiniC

theorem lex_nil : lex [] = { tokens := [endToken 1], diagnostics := [] } := by
  have hsplit : Element.split (Text.chars []) = [] := by
    rw [show Text.chars [] = [] from rfl, Element.split]
  rw [lex, lexChars, hsplit]
  rfl

/-- The empty source is the program without functions. -/
theorem compile_nil : compile [] = .ok ⟨[]⟩ := by
  rw [compile, Parse.parse_eq_ok_iff, lex_nil]
  exact .nil

end MiniC
