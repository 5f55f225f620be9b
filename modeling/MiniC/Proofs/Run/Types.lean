import MiniC.Proofs.Run.Reach

/-!
# Declared types

In every state that a run passes through, variables of a floating type hold
floating numbers, and all others hold numbers that are narrowed. One exception
is made on purpose: a declaration without a value stores integer zero whatever
the type is, and there it stays until the variable is written.
-/

namespace MiniC

open Text

namespace Value

theorem coerce_coerce (v : Value) (type : Bytes) :
    (v.coerce type).coerce type = v.coerce type := by
  unfold coerce
  split
  · rfl
  · exact v.narrow_narrow

/-- What floating types leave as it is, is floating. -/
theorem exists_float_of_coerce_eq {v : Value} {type : Bytes} (hf : isFloating type)
    (h : v.coerce type = v) : ∃ f, v = .float f := by
  rw [coerce, if_pos hf] at h
  exact ⟨v.asFloat, h.symm⟩

/-- A floating number that narrowing leaves as it is equals no 64-bit integer. -/
theorem not_fits_of_narrow_eq {f : Float} {i : Int} (h : (float f).narrow = float f)
    (hi : (Binary64.read f).whole? = some i) : ¬ fits i := by
  intro hfits
  have hexact : exactInt? f = some (Int64.ofInt i) := by
    rw [exactInt?, hi]
    exact if_pos hfits
  rw [narrow, hexact] at h
  cases h

end Value

/-- Among finished nodes, a variable was last written by a declaration without a value. -/
def BareSince (ns : List Node) (x type : Bytes) : Prop :=
  ∃ before after, ns = before ++ .decl type x .hole :: after ∧ ∀ n ∈ after, n.written? ≠ some x

/-- A store respects the types that were declared, seen together with the nodes that were
finished. -/
structure Store.Respects (s : Store) (ns : List Node) : Prop where
  /-- A variable with a declared type has a value. -/
  bound : ∀ x type, s.typeOf? x = some type → x ∈ s.names
  /-- A variable of a floating type holds a floating number, or integer zero as long as nothing
  was written to it. -/
  floating : ∀ x type, s.typeOf? x = some type → Value.isFloating type →
    (∃ f, s.lookup x = .float f) ∨ s.lookup x = .int 0 ∧ BareSince ns x type
  /-- Every other variable holds a value that its type leaves as it is, and so no floating number
  that equals a 64-bit integer. -/
  narrowed : ∀ x ∈ s.names, (∀ type, s.typeOf? x = some type → ¬ Value.isFloating type) →
    (s.lookup x).coerce ((s.typeOf? x).getD untyped) = s.lookup x ∧
      ∀ f i, s.lookup x = .float f → (Binary64.read f).whole? = some i → ¬ Value.fits i

namespace BareSince

variable {ns : List Node} {x type : Bytes}

theorem self (ns : List Node) (x type : Bytes) : BareSince (ns ++ [.decl type x .hole]) x type :=
  ⟨ns, [], rfl, by simp⟩

theorem snoc {n : Node} (h : BareSince ns x type) (hn : n.written? ≠ some x) :
    BareSince (ns ++ [n]) x type := by
  obtain ⟨before, after, rfl, hafter⟩ := h
  refine ⟨before, after ++ [n], by simp, ?_⟩
  intro m hm
  rcases List.mem_append.mp hm with hm | hm
  · exact hafter m hm
  · rwa [List.mem_singleton.mp hm]

end BareSince

/-- A variable holds what its type leaves as it is, or integer zero from a declaration without a
value. This is what every finished node keeps up for every variable. -/
def Settled (ns : List Node) (s : Store) (x : Bytes) : Prop :=
  (s.lookup x).coerce ((s.typeOf? x).getD Store.untyped) = s.lookup x ∨
    ∃ type, s.typeOf? x = some type ∧ s.lookup x = .zero ∧ BareSince ns x type

namespace Settled

variable {ns : List Node} {s : Store} {x : Bytes} {n : Node} {b : Binding}

theorem snoc (h : Settled ns s x) (hn : n.written? ≠ some x) : Settled (ns ++ [n]) s x := by
  rcases h with h | ⟨type, htype, hzero, hbare⟩
  · exact .inl h
  · exact .inr ⟨type, htype, hzero, hbare.snoc hn⟩

/-- A write leaves other variables settled. -/
theorem put_of_ne (h : Settled ns s x) (hn : n.written? = some b.name) (hne : b.name ≠ x) :
    Settled (ns ++ [n]) (s.put b) x := by
  have hwritten : n.written? ≠ some x := by
    rw [hn]
    exact fun he => hne (Option.some.inj he)
  have hsnoc := h.snoc hwritten
  unfold Settled at hsnoc ⊢
  rwa [Store.lookup_put, Store.typeOf?_put, if_neg hne, if_neg hne]

/-- A variable is settled by a binding whose type leaves its value as it is. -/
theorem put_self (hb : b.value.coerce (b.type.getD Store.untyped) = b.value) :
    Settled ns (s.put b) b.name := by
  left
  rwa [Store.lookup_put, Store.typeOf?_put, if_pos rfl, if_pos rfl]

/-- A declaration without a value settles its variable at zero. -/
theorem put_bare (ns : List Node) (s : Store) (type name : Bytes) :
    Settled (ns ++ [.decl type name .hole]) (s.put ⟨name, some type, .zero⟩) name := by
  right
  refine ⟨type, ?_, ?_, .self ns name type⟩
  · rw [Store.typeOf?_put, if_pos rfl]
  · rw [Store.lookup_put, if_pos rfl]

end Settled

/-- Finishing a node keeps all variables settled. -/
theorem settled_apply {ns : List Node} {s : State} (h : ∀ x, Settled ns s.store x) (n : Node)
    (v : Value) (x : Bytes) : Settled (ns ++ [n]) (n.effect.apply v s).store x := by
  obtain ⟨hnone, hstore⟩ | ⟨type, name, rfl, hstore⟩ | ⟨type, name, _, rfl, -, hstore⟩ |
    ⟨_, name, _, rfl, hstore⟩ := n.store_cases v s
  · rw [hstore]
    exact (h x).snoc (by simp [hnone])
  · rw [hstore]
    by_cases hx : name = x
    · subst hx
      exact .put_bare ns s.store type name
    · exact (h x).put_of_ne rfl hx
  · rw [hstore]
    by_cases hx : name = x
    · subst hx
      exact .put_self (v.coerce_coerce type)
    · exact (h x).put_of_ne rfl hx
  · rw [hstore]
    by_cases hx : name = x
    · subst hx
      exact .put_self (v.coerce_coerce _)
    · exact (h x).put_of_ne rfl hx

theorem Steps.settled {ns : List Node} {t : State} (h : Steps .initial ns t) (x : Bytes) :
    Settled ns t.store x := by
  induction h generalizing x with
  | nil => exact .inl rfl
  | snoc v _ ih => exact settled_apply ih _ v x

/-- Where all variables are settled, the declared types are respected. -/
theorem Store.respects_of_settled {ns : List Node} {s : Store} (h : ∀ x, Settled ns s x) :
    s.Respects ns where
  bound x type := Store.mem_names_of_typeOf?
  floating := by
    intro x type htype hf
    rcases h x with hcoerce | ⟨type', htype', hzero, hbare⟩
    · rw [htype] at hcoerce
      exact .inl (Value.exists_float_of_coerce_eq hf hcoerce)
    · obtain rfl : type = type' := Option.some.inj (htype.symm.trans htype')
      exact .inr ⟨hzero, hbare⟩
  narrowed := by
    intro x _ hnot
    have hinteger := not_isFloating_getD hnot
    have hcoerce : (s.lookup x).coerce ((s.typeOf? x).getD untyped) = s.lookup x := by
      rcases h x with hcoerce | ⟨type, -, hzero, -⟩
      · exact hcoerce
      · rw [hzero, Value.coerce, if_neg hinteger]
        rfl
    refine ⟨hcoerce, ?_⟩
    intro f i hlookup hi
    rw [hlookup, Value.coerce, if_neg hinteger] at hcoerce
    exact Value.not_fits_of_narrow_eq hcoerce hi

/-- The declared types are respected in every state that a run passes through, and the state it
stops in is one of these. -/
theorem Program.respects_of_reaches (p : Program) :
    (∀ ns t, p.node.Reaches .initial ns t → t.store.Respects ns) ∧
      ∃ ns, p.node.Reaches .initial ns p.run.state := by
  refine ⟨?_, p.exists_reaches_run⟩
  intro ns t h
  exact Store.respects_of_settled h.steps.settled

/-- A floating variable that is declared without a value and then assigned an integer: before the
assignment it holds integer zero, behind it a floating number. -/
theorem Program.respects_of_reaches_bare :
    let bare : Node := .decl "float" "x" .hole
    let write : Expr := .assign "=" (.var "x") (.const (.number (.int 7)))
    let p : Program := ⟨[.function "int" "main" [] [bare, .expr write]]⟩
    ∃ t, p.node.Reaches .initial [bare] t ∧ t.store.lookup "x" = .int 0 ∧
      t.store.Respects [bare] ∧ ∃ ns, p.node.Reaches .initial ns p.run.state := by
  intro bare write p
  have hreach : p.node.Reaches .initial [bare]
      { State.initial with store := (Store.empty.declareZero "x" "float").2 } :=
    .program (.head (.function (.head (.finish rfl))))
  obtain ⟨hrespects, hstops⟩ := Program.respects_of_reaches p
  exact ⟨_, hreach, rfl, hrespects _ _ hreach, hstops⟩

end MiniC
