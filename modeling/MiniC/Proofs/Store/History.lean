import MiniC.Proofs.Store

/-!
# Stores and their histories

Three operations write to a store: declarations with a value, declarations
without one, and assignments. A store that began empty is determined by the
operations on it, name by name: the last declaration of a name gives its type,
the last operation on it its value, and operations on other names count for
nothing. The value is coerced by the type that the name has at that moment,
which later declarations do not change in hindsight.
-/

namespace MiniC

open Text

/-- An operation that writes to a store. -/
inductive Write where
  /-- Declare a variable with a value. -/
  | declare (name type : Bytes) (v : Value)
  /-- Declare a variable without a value. -/
  | declareZero (name type : Bytes)
  /-- Assign a value to a variable. -/
  | assign (name : Bytes) (v : Value)
  deriving DecidableEq

namespace Write

/-- The variable that is written. -/
def name : Write → Bytes
  | .declare name _ _ => name
  | .declareZero name _ => name
  | .assign name _ => name

/-- The type that is declared. -/
def type? : Write → Option Bytes
  | .declare _ type _ => some type
  | .declareZero _ type => some type
  | .assign _ _ => none

/-- The value that is written, before it is coerced. -/
def value? : Write → Option Value
  | .declare _ _ v => some v
  | .declareZero _ _ => none
  | .assign _ v => some v

/-- Perform an operation on a store; returns what the operation returns. -/
def perform : Write → Store → Value × Store
  | .declare name type v, s => s.declare name type v
  | .declareZero name type, s => s.declareZero name type
  | .assign name v, s => s.assign name v

end Write

namespace Store

/-- The store that operations leave, one after the other. -/
def performAll (s : Store) (ws : List Write) : Store := ws.foldl (fun s w => (w.perform s).2) s

/-- The store that a history leaves. -/
def after (ws : List Write) : Store := empty.performAll ws

/-- The operations of a history on one name. -/
def onName (x : Bytes) (ws : List Write) : List Write := ws.filter (·.name = x)

/-- An operation is the last one on a name in a history, behind an earlier part of it. -/
def LastOn (x : Bytes) (ws earlier : List Write) (w : Write) : Prop :=
  w.name = x ∧ ∃ later, ws = earlier ++ w :: later ∧ ∀ u ∈ later, u.name ≠ x

/-- What a store tells about a name is what its history says about it. -/
structure Recalls (ws : List Write) (x : Bytes) : Prop where
  /-- The type is that of the last declaration; without a declaration there is none. -/
  type : (after ws).typeOf? x = ((onName x ws).filterMap Write.type?).getLast?
  /-- A variable that was never written is zero. -/
  unwritten : (∀ w ∈ ws, w.name ≠ x) → (after ws).lookup x = .int 0
  /-- A variable that was last declared without a value is zero, whatever its type. -/
  zero : ∀ earlier type, LastOn x ws earlier (.declareZero x type) → (after ws).lookup x = .int 0
  /-- Otherwise the last value counts, coerced by the type that the variable had just after it
  was written, and by the rule of the integer types if it had none. -/
  value : ∀ earlier w v, LastOn x ws earlier w → w.value? = some v →
    (after ws).lookup x =
      match (after (earlier ++ [w])).typeOf? x with
      | some type => v.coerce type
      | none => v.narrow
  /-- The variable is listed if and only if it was ever written. -/
  listed : x ∈ (after ws).names ↔ ∃ w ∈ ws, w.name = x
  /-- Histories with the same operations on the name tell the same about it. -/
  others : ∀ us, onName x us = onName x ws →
    (after us).typeOf? x = (after ws).typeOf? x ∧ (after us).lookup x = (after ws).lookup x ∧
      (x ∈ (after us).names ↔ x ∈ (after ws).names)

/-! ## Stores that agree on a name -/

section Agree

variable {s s' : Store} {x : Bytes}

theorem lookup_congr (h : s.find? x = s'.find? x) : s.lookup x = s'.lookup x := by
  rw [lookup, lookup, h]

theorem typeOf?_congr (h : s.find? x = s'.find? x) : s.typeOf? x = s'.typeOf? x := by
  rw [typeOf?, typeOf?, h]

theorem mem_names_congr (h : s.find? x = s'.find? x) : x ∈ s.names ↔ x ∈ s'.names := by
  rw [mem_names_iff, mem_names_iff, h]

end Agree

/-! ## One operation -/

section Step

variable (s : Store) (w : Write) (x : Bytes)

/-- Every operation stores what it returns, under the type it declares or else the one that was
declared before. -/
theorem perform_eq :
    (w.perform s).2 = s.put ⟨w.name, w.type?.or (s.typeOf? w.name), (w.perform s).1⟩ := by
  cases w with
  | declare name type v => rfl
  | declareZero name type => rfl
  | assign name v => rfl

theorem find?_perform :
    (w.perform s).2.find? x =
      if w.name = x then some ⟨w.name, w.type?.or (s.typeOf? w.name), (w.perform s).1⟩
      else s.find? x := by
  rw [perform_eq, find?_put]

theorem typeOf?_perform :
    (w.perform s).2.typeOf? x = if w.name = x then w.type?.or (s.typeOf? x) else s.typeOf? x := by
  rw [perform_eq, typeOf?_put]
  split
  · rename_i h
    rw [← h]
  · rfl

/-- An operation returns what is then found in the variable. -/
theorem lookup_perform :
    (w.perform s).2.lookup x = if w.name = x then (w.perform s).1 else s.lookup x := by
  rw [perform_eq, lookup_put]

/-- A value is coerced by the type of the variable as the operation leaves it. -/
theorem perform_of_value? {v : Value} (h : w.value? = some v) :
    (w.perform s).1 =
      match (w.perform s).2.typeOf? w.name with
      | some type => v.coerce type
      | none => v.narrow := by
  rw [typeOf?_perform, if_pos rfl]
  cases w with
  | declare name type u =>
    cases h
    rfl
  | declareZero name type => cases h
  | assign name u =>
    cases h
    change v.coerce ((s.typeOf? name).getD untyped) = _
    cases htype : s.typeOf? name with
    | some type => simp [Write.type?, Write.name, htype]
    | none =>
      simp only [Write.type?, Write.name, htype, Option.getD_none, Option.or_none]
      exact if_neg (by decide)

variable {s w x} in
/-- What an operation does to its variable depends on nothing but that variable. -/
theorem find?_perform_congr {s' : Store} (hx : w.name = x) (h : s.find? x = s'.find? x) :
    (w.perform s).2.find? x = (w.perform s').2.find? x := by
  have htype := typeOf?_congr h
  have hreturned : (w.perform s).1 = (w.perform s').1 := by
    cases w with
    | declare name type v => rfl
    | declareZero name type => rfl
    | assign name v =>
      obtain rfl : name = x := hx
      change v.coerce ((s.typeOf? name).getD untyped) = v.coerce ((s'.typeOf? name).getD untyped)
      rw [htype]
  rw [find?_perform, find?_perform, if_pos hx, if_pos hx, hreturned, hx, htype]

end Step

/-! ## Histories -/

section Run

variable {s s' : Store} {ws us : List Write} {x : Bytes}

theorem performAll_cons (s : Store) (w : Write) (ws : List Write) :
    s.performAll (w :: ws) = (w.perform s).2.performAll ws := rfl

theorem performAll_append (s : Store) (ws us : List Write) :
    s.performAll (ws ++ us) = (s.performAll ws).performAll us :=
  List.foldl_append

theorem after_append (ws us : List Write) : after (ws ++ us) = (after ws).performAll us :=
  performAll_append empty ws us

theorem after_snoc (ws : List Write) (w : Write) :
    after (ws ++ [w]) = (w.perform (after ws)).2 :=
  after_append ws [w]

/-- A variable is left to the operations on its own name. -/
theorem find?_performAll (h : s.find? x = s'.find? x) (ws : List Write) :
    (s.performAll ws).find? x = (s'.performAll (onName x ws)).find? x := by
  -- Both stores agree on the name all along, also where only the first performs an operation.
  induction ws generalizing s s' with
  | nil => exact h
  | cons w ws ih =>
    by_cases hx : w.name = x
    · have hname : onName x (w :: ws) = w :: onName x ws := List.filter_cons_of_pos (by simpa)
      rw [hname, performAll_cons, performAll_cons]
      exact ih (find?_perform_congr hx h)
    · have hname : onName x (w :: ws) = onName x ws := List.filter_cons_of_neg (by simpa)
      rw [hname, performAll_cons]
      exact ih (by rw [find?_perform, if_neg hx, h])

theorem find?_after (ws : List Write) : (after ws).find? x = (after (onName x ws)).find? x :=
  find?_performAll rfl ws

/-- Operations on other names leave a variable alone. -/
theorem find?_performAll_of_ne (h : ∀ w ∈ ws, w.name ≠ x) (s : Store) :
    (s.performAll ws).find? x = s.find? x := by
  have hname : onName x ws = [] := List.filter_eq_nil_iff.mpr (by simpa using h)
  rw [find?_performAll rfl ws, hname]
  rfl

theorem typeOf?_performAll (s : Store) (h : ∀ w ∈ ws, w.name = x) :
    (s.performAll ws).typeOf? x = ((ws.filterMap Write.type?).getLast?).or (s.typeOf? x) := by
  induction ws generalizing s with
  | nil => rfl
  | cons w ws ih =>
    obtain ⟨hw, hws⟩ := List.forall_mem_cons.mp h
    rw [performAll_cons, ih _ hws, typeOf?_perform, if_pos hw, ← Option.or_assoc]
    congr 1
    cases htype : w.type? with
    | none => simp [htype]
    | some type => simp [htype, List.getLast?_cons]

theorem mem_names_performAll (s : Store) (ws : List Write) :
    x ∈ (s.performAll ws).names ↔ x ∈ s.names ∨ ∃ w ∈ ws, w.name = x := by
  induction ws generalizing s with
  | nil => simp [performAll]
  | cons w ws ih =>
    rw [performAll_cons, ih, perform_eq, mem_names_put]
    simp only [List.mem_cons, exists_eq_or_imp]
    exact or_assoc.trans or_left_comm

/-- The names of a store stand in ascending order, whatever was written. -/
theorem pairwise_names_performAll (h : s.names.Pairwise (· < ·)) (ws : List Write) :
    (s.performAll ws).names.Pairwise (· < ·) := by
  induction ws generalizing s with
  | nil => exact h
  | cons w ws ih =>
    rw [performAll_cons, perform_eq]
    exact ih (pairwise_names_put _ h)

/-- Behind the last operation on a name, what that operation returned is found. -/
theorem LastOn.lookup_eq {earlier : List Write} {w : Write} (h : LastOn x ws earlier w) :
    (after ws).lookup x = (w.perform (after earlier)).1 := by
  obtain ⟨hx, later, rfl, hlater⟩ := h
  rw [List.append_cons, after_append, lookup_congr (find?_performAll_of_ne hlater _), after_snoc,
    lookup_perform, if_pos hx]

end Run

theorem recalls (ws : List Write) (x : Bytes) : Recalls ws x where
  type := by
    have hname : ∀ w ∈ onName x ws, w.name = x := by simp [onName]
    rw [typeOf?_congr (find?_after ws)]
    exact (typeOf?_performAll empty hname).trans Option.or_none
  unwritten h := by
    rw [after, lookup_congr (find?_performAll_of_ne h empty)]
    rfl
  zero earlier type h := h.lookup_eq
  value earlier w v h hv := by
    rw [h.lookup_eq, perform_of_value? _ w hv, after_snoc, h.1]
  listed := by
    rw [after, mem_names_performAll]
    simp [empty, names]
  others us h := by
    have hfind : (after us).find? x = (after ws).find? x := by
      rw [find?_after us, h, ← find?_after ws]
    exact ⟨typeOf?_congr hfind, lookup_congr hfind, mem_names_congr hfind⟩

/-- A store that began empty is its history, name by name. Every operation returns what is then
found in its variable, and the names stand in strictly ascending order. -/
theorem after_eq_history (ws : List Write) :
    (∀ x, Recalls ws x) ∧
      (∀ w : Write, (w.perform (after ws)).1 = (after (ws ++ [w])).lookup w.name) ∧
        (after ws).names.Pairwise (· < ·) := by
  refine ⟨recalls ws, ?_, ?_⟩
  · intro w
    rw [after_snoc, lookup_perform, if_pos rfl]
  · exact pairwise_names_performAll List.Pairwise.nil ws

/-- A variable that is assigned to before it is declared has no type until then, and a declaration
without a value makes it zero again. -/
example :
    let u : Write := .assign "x" (.int 2)
    let w : Write := .declareZero "x" "float"
    let other : Write := .declare "a" "int" (.int 1)
    (Store.after [u, other]).typeOf? "x" = none ∧ (Store.after [u, other]).lookup "x" = .int 2 ∧
      (Store.after [u, w, other]).typeOf? "x" = some "float" ∧
        (Store.after [u, w, other]).lookup "x" = .int 0 ∧
          (Store.after [u, w, other]).names = [("a" : Bytes), ("x" : Bytes)] := by decide

end Store

end MiniC
