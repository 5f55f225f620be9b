import MiniC.Proofs.Parse.Outcome

/-!
# What the parsers do not see

No parser looks at the line of a token, and none tells an end token from the end
of the list. A change of token lists that keeps the kinds, the texts and the
values of their tokens, and puts nothing or an end token behind the last of
them, goes unseen: parsing behind the change gives the same as the change of
what parsing left.
-/

namespace MiniC

namespace Token

/-- Two tokens that differ at most in the lines they stand on. -/
structure Alike (t u : Token) : Prop where
  kind : t.kind = u.kind
  lexeme : t.lexeme = u.lexeme
  value : t.value = u.value

theorem Alike.refl (t : Token) : t.Alike t := ⟨rfl, rfl, rfl⟩

theorem Alike.is_eq {t u : Token} (h : t.Alike u) (k : Kind) (lexeme : Text.Bytes) :
    t.is k lexeme = u.is k lexeme := by
  rw [is, is, h.kind, h.lexeme]

end Token

namespace Parse

variable {α β : Type} {change : List Token → List Token} {ts : List Token}

/-- A change of token lists that the parsers do not see: each token is replaced by one that is
alike, and what comes behind the last token starts with an end token if there is anything. -/
structure Unseen (change : List Token → List Token) : Prop where
  nil : AtEnd (change [])
  cons : ∀ t ts, ∃ u : Token, u.Alike t ∧ change (t :: ts) = u :: change ts

/-- A fault with its tokens changed. -/
def Fault.changed (change : List Token → List Token) (fault : Fault) : Fault :=
  ⟨fault.expected, change fault.rest⟩

/-- An outcome with its tokens changed. -/
def Outcome.changed (change : List Token → List Token) : Outcome α → Outcome α
  | .ok (x, rest) => .ok (x, change rest)
  | .error fault => .error (fault.changed change)

theorem next_of_atEnd {k : Kind} (hk : k ≠ .eof) (lexeme : String) (h : AtEnd ts) :
    next k lexeme ts = false := by
  cases ts with
  | nil => rfl
  | cons t rest =>
    rw [next_cons]
    simp [Token.is, atEnd_cons.mp h, hk.symm]

namespace Unseen

variable (hchange : Unseen change)
include hchange

/-- The next token of a changed list is alike to the next one before, or an end token. -/
theorem head {u : Token} (hu : u ∈ (change ts).head?) :
    u.kind = .eof ∨ ∃ t ∈ ts.head?, u.Alike t := by
  cases ts with
  | nil => exact .inl (hchange.nil u hu)
  | cons t rest =>
    obtain ⟨v, hv, hcons⟩ := hchange.cons t rest
    rw [hcons] at hu
    cases hu
    exact .inr ⟨t, rfl, hv⟩

theorem atEnd (h : AtEnd ts) : AtEnd (change ts) := by
  intro u hu
  rcases hchange.head hu with hu | ⟨t, ht, hut⟩
  · exact hu
  · exact hut.kind.trans (h t ht)

theorem next_eq {k : Kind} (hk : k ≠ .eof) (lexeme : String) (ts : List Token) :
    next k lexeme (change ts) = next k lexeme ts := by
  cases ts with
  | nil => exact next_of_atEnd hk lexeme hchange.nil
  | cons t rest =>
    obtain ⟨u, hu, hcons⟩ := hchange.cons t rest
    rw [hcons]
    exact hu.is_eq k lexeme

end Unseen

/-- A parser does not see a change of the tokens it reads. -/
def Blind (change : List Token → List Token) (read : List Token → Outcome α) (ts : List Token) :
    Prop :=
  read (change ts) = (read ts).changed change

/-- A condition on tokens that depends on their kind, text and value and that no end token meets. -/
structure Distinguishes (wanted : Token → Bool) : Prop where
  alike : ∀ {t u : Token}, u.Alike t → wanted u = wanted t
  atEnd : ∀ {t : Token}, t.kind = .eof → wanted t = false

theorem distinguishes_kind {k : Kind} (hk : k ≠ .eof) : Distinguishes (·.kind = k) where
  alike h := by rw [h.kind]
  atEnd h := by simpa [h] using hk.symm

theorem distinguishes_sign {k : Kind} (hk : k ≠ .eof) (lexeme : String) :
    Distinguishes (·.is k lexeme) where
  alike h := h.is_eq k lexeme
  atEnd h := by simp [Token.is, h, hk.symm]

namespace Blind

variable {read : List Token → Outcome α}

theorem eq_changed (h : Blind change read ts) : read (change ts) = (read ts).changed change := h

theorem congr {read' : List Token → Outcome α} (he : ∀ us, read us = read' us)
    (h : Blind change read' ts) : Blind change read ts := by
  rwa [funext he]

/-- What reads nothing. -/
theorem ok (x : α) (ts : List Token) : Blind change (fun us => .ok (x, us)) ts := rfl

/-- Two parsers in a row. -/
theorem andThen {following : α → List Token → Outcome β} (h : Blind change read ts)
    (hq : ∀ x rest, read ts = .ok (x, rest) → Blind change (following x) rest) :
    Blind change (fun us => (read us).andThen following) ts := by
  rw [Blind]
  simp only [h.eq_changed]
  cases hr : read ts with
  | error fault => rfl
  | ok p =>
    obtain ⟨x, rest⟩ := p
    exact hq x rest hr

variable (hchange : Unseen change)
include hchange

/-- A token that is read in the same way as all that are alike. -/
theorem cons {t : Token} {rest : List Token} (read' : List Token → Outcome α)
    (he : ∀ u : Token, u.Alike t → ∀ us, read (u :: us) = read' us) (h : Blind change read' rest) :
    Blind change read (t :: rest) := by
  obtain ⟨u, hu, hcons⟩ := hchange.cons t rest
  rw [Blind, hcons, he u hu, he t (.refl t)]
  exact h

/-- What stops at the next token, whatever comes behind it. -/
theorem of_head (stop : List Token → Outcome α) (hstop : Blind change stop ts)
    (h : ∀ us : List Token, (∀ u ∈ us.head?, u.kind = .eof ∨ ∃ t ∈ ts.head?, u.Alike t) →
      read us = stop us) : Blind change read ts := by
  have hts : read ts = stop ts := h ts fun u hu => .inr ⟨u, hu, .refl u⟩
  rw [Blind, hts, h _ fun u hu => hchange.head hu]
  exact hstop

/-- A token that meets a condition, and then what follows it. -/
theorem single {expected : Expected} {wanted : Token → Bool}
    {following : Token → List Token → Outcome β} (hw : Distinguishes wanted)
    (hf : ∀ t u : Token, u.Alike t → following u = following t)
    (hq : ∀ t rest, ts = t :: rest → Blind change (following t) rest) :
    Blind change (fun us => (Parse.single expected wanted us).andThen following) ts := by
  by_cases ht : ∃ t rest, ts = t :: rest ∧ wanted t = true
  · obtain ⟨t, rest, rfl, ht⟩ := ht
    refine cons hchange (following t) ?_ (hq t rest rfl)
    intro u hu us
    rw [Parse.single, hw.alike hu, if_pos ht, Outcome.andThen_ok, hf t u hu]
  · refine of_head hchange (fun us => .error ⟨expected, us⟩) rfl fun us hus => ?_
    cases us with
    | nil => rfl
    | cons u us =>
      have hu : wanted u = false := by
        rcases hus u rfl with hu | ⟨t, hts, hu⟩
        · exact hw.atEnd hu
        · obtain ⟨rest, rfl⟩ := List.head?_eq_some_iff.mp hts
          rw [hw.alike hu, Bool.eq_false_iff]
          exact fun hwanted => ht ⟨t, rest, rfl, hwanted⟩
      simp [Parse.single, hu]

/-- A particular token, of which nothing is kept, and then what follows it. -/
theorem sign (k : Kind) (hk : k ≠ .eof) (lexeme : String) {following : List Token → Outcome β}
    (hq : ∀ t rest, ts = t :: rest → Blind change following rest) :
    Blind change (fun us => (Parse.sign k lexeme us).andThen fun _ => following) ts :=
  single hchange (distinguishes_sign hk lexeme) (fun _ _ _ => rfl) hq

/-- A choice between going on behind the next token and going on from it. -/
theorem branch (k : Kind) (hk : k ≠ .eof) (lexeme : String) (read read' : List Token → Outcome α)
    (ht : Blind change read ts.tail) (hf : Blind change read' ts) :
    Blind change (fun us => if next k lexeme us then read us.tail else read' us) ts := by
  rw [Blind]
  simp only [hchange.next_eq hk]
  by_cases hn : next k lexeme ts = true
  · rw [if_pos hn, if_pos hn]
    obtain ⟨t, rest, rfl, -⟩ := eq_cons_of_next hn
    obtain ⟨u, -, hcons⟩ := hchange.cons t rest
    rw [hcons]
    exact ht
  · rw [if_neg hn, if_neg hn]
    exact hf

end Blind

/-- No parser of expressions sees a change. -/
private structure AllBlind (change : List Token → List Token) (ts : List Token) : Prop where
  primary : Blind change (fun us => outcome (primary us)) ts
  climb : ∀ ranks left, Blind change (fun us => outcome (climb ranks left us)) ts
  operation : ∀ ranks, Blind change (fun us => outcome (operation ranks us)) ts
  expression : Blind change (fun us => outcome (expression us)) ts
  argumentList : Blind change (fun us => outcome (argumentList us)) ts
  arguments : Blind change (fun us => outcome (arguments us)) ts

section Parsers

variable (hchange : Unseen change)
include hchange

/-! ## Expressions -/

private theorem primary_blind_step
    (he : ∀ us : List Token, us.length < ts.length →
      Blind change (fun us => outcome (expression us)) us)
    (ha : ∀ us : List Token, us.length < ts.length →
      Blind change (fun us => outcome (arguments us)) us) :
    Blind change (fun us => outcome (primary us)) ts := by
  cases ts with
  | nil =>
    refine .of_head hchange (fun us => .error ⟨.expression, us⟩) rfl fun us hus => ?_
    cases us with
    | nil => exact outcome_primary_nil
    | cons u us =>
      have hu : u.kind = .eof := by simpa using hus u rfl
      simp [outcome_primary_cons, Token.is, hu]
  | cons t rest =>
    by_cases hnum : t.kind = .number
    · refine .cons hchange _ ?_ (.ok (.const (.number t.value)) rest)
      intro u hu us
      rw [outcome_primary_cons, hu.kind, hu.value, if_pos hnum]
    by_cases hstr : t.kind = .string
    · refine .cons hchange _ ?_ (.ok (.const (.string t.lexeme)) rest)
      intro u hu us
      rw [outcome_primary_cons, hu.kind, hu.lexeme, if_neg hnum, if_pos hstr]
    by_cases hid : t.kind = .identifier
    · refine .cons hchange _ ?_ (.branch hchange .punct (by decide) "(" (fun us =>
        (outcome (arguments us)).andThen fun args rest => .ok (Expr.call t.lexeme args, rest))
        (fun us => .ok (.var t.lexeme, us)) ?_ (.ok _ rest))
      · intro u hu us
        rw [outcome_primary_cons, hu.kind, hu.lexeme, if_neg hnum, if_neg hstr, if_pos hid]
      · have hshort : rest.tail.length < (t :: rest).length := by
          rw [List.length_tail, List.length_cons]
          omega
        exact .andThen (ha _ hshort) fun args us _ => .ok _ us
    by_cases hb : t.is .punct "(" = true
    · have hbracket : Blind change (fun us => (outcome (expression us)).andThen fun inner rest =>
          (sign .punct ")" rest).andThen fun _ rest => .ok (inner, rest)) rest := by
        refine .andThen (he rest (Nat.lt_succ_self _)) fun inner us _ => ?_
        exact .sign hchange .punct (by decide) ")" fun _ vs _ => .ok inner vs
      refine .cons hchange _ ?_ hbracket
      intro u hu us
      rw [outcome_primary_cons, hu.kind, hu.is_eq, if_neg hnum, if_neg hstr, if_neg hid, if_pos hb]
    · have herror (u : Token) (hu : u.Alike t) (us : List Token) :
          outcome (primary (u :: us)) = .error ⟨.expression, u :: us⟩ := by
        rw [outcome_primary_cons, hu.kind, hu.is_eq, if_neg hnum, if_neg hstr, if_neg hid,
          if_neg hb]
      obtain ⟨u, hu, hcons⟩ := hchange.cons t rest
      rw [Blind, hcons, herror u hu, herror t (.refl t), Outcome.changed, Fault.changed, hcons]

private theorem climb_blind_step {ranks : Nat}
    (ho : ∀ us : List Token, us.length < ts.length →
      ∀ rank, Blind change (fun us => outcome (operation rank us)) us)
    (hc : ∀ us : List Token, us.length < ts.length →
      ∀ left, Blind change (fun us => outcome (climb ranks left us)) us) (left : Expr) :
    Blind change (fun us => outcome (climb ranks left us)) ts := by
  have hrank {u t : Token} (hu : u.Alike t) : operatorRank? u = operatorRank? t := by
    rw [operatorRank?, operatorRank?, hu.kind, hu.lexeme]
  -- Whether the next token is an operator depends on its kind and its text only.
  by_cases hjoins : ∃ t us rank, ts = t :: us ∧ operatorRank? t = some rank ∧ rank < ranks
  · obtain ⟨t, us, rank, rfl, ht, hlt⟩ := hjoins
    refine .cons hchange _ ?_ (.andThen (ho us (Nat.lt_succ_self _) rank) fun right vs hvs =>
      hc vs (Nat.lt_succ_of_lt (outcome_shorter hvs)) (.binary t.lexeme left right))
    intro u hu vs
    rw [outcome_climb_of_lt left vs ((hrank hu).trans ht) hlt, hu.lexeme]
  · refine .of_head hchange _ (.ok left ts) fun us hus => ?_
    refine outcome_climb_of_not_lt ranks left fun u hu rank hlt => ?_
    rcases hus u hu with hu | ⟨t, hts, hu⟩
    · simp [operatorRank?, hu]
    · obtain ⟨rest, rfl⟩ := List.head?_eq_some_iff.mp hts
      rw [hrank hu]
      exact fun ht => hjoins ⟨t, rest, rank, rfl, ht, hlt⟩

omit hchange in
private theorem operation_blind_step {ranks : Nat}
    (hp : Blind change (fun us => outcome (primary us)) ts)
    (hc : ∀ us : List Token, us.length < ts.length →
      ∀ left, Blind change (fun us => outcome (climb ranks left us)) us) :
    Blind change (fun us => outcome (operation ranks us)) ts := by
  refine .congr (outcome_operation ranks) (.andThen hp fun first us hus => ?_)
  exact hc us (outcome_shorter hus) first

private theorem expression_blind_step
    (ho : Blind change (fun us => outcome (operation Operator.ranks us)) ts)
    (he : ∀ us : List Token, us.length < ts.length →
      Blind change (fun us => outcome (expression us)) us) :
    Blind change (fun us => outcome (expression us)) ts := by
  refine .congr outcome_expression (.andThen ho fun left us hus => ?_)
  refine .branch hchange .operator (by decide) _ (fun us => (outcome (expression us)).andThen
    fun right rest => .ok (Expr.assign "=" left right, rest)) (fun us => .ok (left, us)) ?_
    (.ok left us)
  exact .andThen (he _ (outcome_tail_shorter hus)) fun right vs _ => .ok _ vs

private theorem argumentList_blind_step
    (he : Blind change (fun us => outcome (expression us)) ts)
    (ha : ∀ us : List Token, us.length < ts.length →
      Blind change (fun us => outcome (argumentList us)) us) :
    Blind change (fun us => outcome (argumentList us)) ts := by
  refine .congr outcome_argumentList (.andThen he fun arg us hus => ?_)
  refine .branch hchange .punct (by decide) _ (fun us => (outcome (argumentList us)).andThen
    fun args rest => .ok (arg :: args, rest)) _ ?_ ?_
  · exact .andThen (ha _ (outcome_tail_shorter hus)) fun args vs _ => .ok _ vs
  · exact .sign hchange .punct (by decide) ")" fun _ vs _ => .ok [arg] vs

private theorem arguments_blind_step
    (ha : Blind change (fun us => outcome (argumentList us)) ts) :
    Blind change (fun us => outcome (arguments us)) ts :=
  .congr outcome_arguments
    (.branch hchange .punct (by decide) _ (fun us => .ok ([], us)) _ (.ok [] _) ha)

private theorem allBlind (ts : List Token) : AllBlind change ts := by
  -- What stands in brackets, behind an operator or behind a comma has fewer tokens, so all parsers
  -- go through one induction on their number.
  induction ts using shorter_induction with
  | step ts ih =>
    have hprimary := primary_blind_step hchange (fun us hu => (ih us hu).expression)
      (fun us hu => (ih us hu).arguments)
    have hoperation (ranks : Nat) : Blind change (fun us => outcome (operation ranks us)) ts :=
      operation_blind_step hprimary fun us hu => (ih us hu).climb ranks
    have hexpression :=
      expression_blind_step hchange (hoperation _) fun us hu => (ih us hu).expression
    have hlist :=
      argumentList_blind_step hchange hexpression fun us hu => (ih us hu).argumentList
    exact
      { primary := hprimary
        climb := fun ranks left => climb_blind_step hchange (fun us hu => (ih us hu).operation)
          (fun us hu => (ih us hu).climb ranks) left
        operation := hoperation
        expression := hexpression
        argumentList := hlist
        arguments := arguments_blind_step hchange hlist }

theorem expression_blind (ts : List Token) :
    Blind change (fun us => outcome (expression us)) ts :=
  (allBlind hchange ts).expression

/-! ## Declarations, statements and functions -/

private theorem ended_blind (x : α) (ts : List Token) : Blind change (ended x) ts :=
  .sign hchange .punct (by decide) ";" fun _ us _ => .ok x us

theorem declaration_blind (ts : List Token) :
    Blind change (fun us => outcome (declaration us)) ts := by
  refine .congr outcome_declaration ?_
  refine .single hchange (distinguishes_kind (by decide)) (fun _ _ h => by simp only [h.lexeme])
    fun type us _ => ?_
  refine .single hchange (distinguishes_kind (by decide)) (fun _ _ h => by simp only [h.lexeme])
    fun name vs _ => ?_
  refine .branch hchange .operator (by decide) _ (fun us => (outcome (expression us)).andThen
    fun init rest => ended (Node.decl type.lexeme name.lexeme init) rest) _ ?_
    (ended_blind hchange _ vs)
  exact .andThen (expression_blind hchange _) fun init ws _ => ended_blind hchange _ ws

theorem statement_blind (ts : List Token) : Blind change (fun us => outcome (statement us)) ts := by
  refine .congr outcome_statement ?_
  refine .branch hchange .keyword (by decide) _ (fun us => if next .punct ";" us then
      .ok (Node.ret .hole, us.tail)
    else (outcome (expression us)).andThen fun value rest => ended (Node.ret value) rest) _ ?_ ?_
  · refine .branch hchange .punct (by decide) _ (fun us => .ok (Node.ret .hole, us)) _ (.ok _ _) ?_
    exact .andThen (expression_blind hchange _) fun value us _ => ended_blind hchange _ us
  · exact .andThen (expression_blind hchange ts) fun e us _ => ended_blind hchange _ us

theorem item_blind (ts : List Token) : Blind change (fun us => outcome (item us)) ts := by
  cases ts with
  | nil =>
    refine (statement_blind hchange []).of_head hchange _ fun us hus => ?_
    cases us with
    | nil => rfl
    | cons u us =>
      have hu : u.kind = .eof := by simpa using hus u rfl
      simp [item, hu]
  | cons t rest =>
    obtain ⟨u, hu, hcons⟩ := hchange.cons t rest
    by_cases ht : t.kind = .type
    · have h := declaration_blind hchange (t :: rest)
      rw [Blind, hcons] at h ⊢
      simpa [item, ht, hu.kind] using h
    · have h := statement_blind hchange (t :: rest)
      rw [Blind, hcons] at h ⊢
      simpa [item, ht, hu.kind] using h

theorem items_blind (ts : List Token) : Blind change (fun us => outcome (items us)) ts := by
  induction ts using shorter_induction with
  | step ts ih =>
    rcases atEnd_or_cons ts with hend | ⟨t, rest, rfl, ht⟩
    · rw [Blind, outcome_items_of_atEnd hend, outcome_items_of_atEnd (hchange.atEnd hend)]
      rfl
    · have hrest : Blind change (fun us => (outcome (item us)).andThen fun head rest =>
          (outcome (items rest)).andThen fun tail rest => .ok (head :: tail, rest))
          (t :: rest) := by
        refine .andThen (item_blind hchange _) fun head us hus => ?_
        exact .andThen (ih us (outcome_shorter hus)) fun tail vs _ => .ok _ vs
      obtain ⟨u, hu, hcons⟩ := hchange.cons t rest
      rw [Blind, hcons] at hrest ⊢
      have hue : u.kind ≠ .eof := by rwa [hu.kind]
      rw [outcome_items_cons rest ht, outcome_items_cons _ hue, hrest, hu.is_eq]
      split
      · rfl
      · rfl

private theorem functionRest_blind (type name : Token) (ts : List Token) :
    Blind change (functionRest type name) ts := by
  refine .sign hchange .punct (by decide) ")" fun _ us _ => ?_
  refine .sign hchange .punct (by decide) "\x7b" fun _ vs _ => ?_
  exact .andThen (items_blind hchange vs) fun body ws _ => .ok _ ws

theorem function_blind (ts : List Token) : Blind change (fun us => outcome (function us)) ts := by
  refine .congr outcome_function ?_
  refine .single hchange (distinguishes_kind (by decide))
    (fun _ _ h => by simp only [functionRest, h.lexeme]) fun type us _ => ?_
  refine .single hchange (distinguishes_kind (by decide))
    (fun _ _ h => by simp only [functionRest, h.lexeme]) fun name vs _ => ?_
  refine .sign hchange .punct (by decide) "(" fun _ ws _ => ?_
  exact .branch hchange .type (by decide) _ (functionRest type name) _
    (functionRest_blind hchange type name _) (functionRest_blind hchange type name ws)

/-- Functions are read alike from changed tokens. -/
theorem functions_changed (ts : List Token) :
    functions (change ts) = (functions ts).mapError (Fault.changed change) := by
  induction ts using shorter_induction with
  | step ts ih =>
    rcases atEnd_or_cons ts with hend | ⟨t, rest, rfl, hend⟩
    · rw [functions_of_atEnd hend, functions_of_atEnd (hchange.atEnd hend)]
      rfl
    obtain ⟨u, hu, hcons⟩ := hchange.cons t rest
    by_cases ht : t.kind = .type
    · have hblind := (function_blind hchange (t :: rest)).eq_changed
      rw [hcons] at hblind ⊢
      rw [functions_cons_type rest ht, functions_cons_type _ (hu.kind.trans ht), hblind]
      cases hf : outcome (function (t :: rest)) with
      | error fault => rfl
      | ok p =>
        obtain ⟨head, us⟩ := p
        have hus := ih us (outcome_shorter hf)
        simp only [Outcome.changed, hus]
        cases functions us with
        | error fault => rfl
        | ok tail => rfl
    · rw [hcons, functions_cons_skip rest hend ht,
        functions_cons_skip _ (by rwa [hu.kind]) (by rwa [hu.kind])]
      exact ih rest (Nat.lt_succ_self _)

end Parsers

end Parse

end MiniC
