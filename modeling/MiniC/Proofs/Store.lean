import MiniC.Store

/-!
# Reading a store after a write

Every write puts one binding into its place. What a name is bound to afterwards
is decided by whether it is the name of that binding, and the names stay in
ascending order.
-/

namespace MiniC.Store

open Text

variable (s : Store) (b : Binding) (x : Bytes)

theorem find?_put : (s.put b).find? x = if b.name = x then some b else s.find? x := by
  split
  · rename_i h
    exact h ▸ s.find?_put_self b
  · rename_i h
    exact s.find?_put_of_ne h

theorem lookup_put : (s.put b).lookup x = if b.name = x then b.value else s.lookup x := by
  simp only [lookup, find?_put]
  split <;> rfl

theorem typeOf?_put : (s.put b).typeOf? x = if b.name = x then b.type else s.typeOf? x := by
  simp only [typeOf?, find?_put]
  split <;> rfl

theorem mem_names_iff : x ∈ s.names ↔ (s.find? x).isSome := by
  simp [names, find?]

/-- A write adds its name and no other. -/
theorem mem_names_put : x ∈ (s.put b).names ↔ b.name = x ∨ x ∈ s.names := by
  rw [mem_names_iff, mem_names_iff, find?_put]
  split
  · rename_i h
    simp [h]
  · rename_i h
    simp [h]

variable {s x} in
/-- A name with a declared type is a name of the store. -/
theorem mem_names_of_typeOf? {type : Bytes} (h : s.typeOf? x = some type) : x ∈ s.names := by
  obtain ⟨c, hc, -⟩ := Option.bind_eq_some_iff.mp h
  rw [mem_names_iff, hc]
  rfl

variable {s x} in
/-- Without a floating type, a variable is written by the rule of the integer types. -/
theorem not_isFloating_getD (h : ∀ type, s.typeOf? x = some type → ¬ Value.isFloating type) :
    ¬ Value.isFloating ((s.typeOf? x).getD untyped) := by
  cases htype : s.typeOf? x with
  | none => decide
  | some type => exact h type htype

private theorem mem_insert {c : Binding} {bs : List Binding} (h : c ∈ b.insert bs) :
    c = b ∨ c ∈ bs := by
  induction bs with
  | nil => exact .inl (List.mem_singleton.mp h)
  | cons d rest ih =>
    unfold Binding.insert at h
    split at h
    · rcases List.mem_cons.mp h with rfl | h
      · exact .inr List.mem_cons_self
      · exact (ih h).imp_right (List.mem_cons_of_mem d)
    · split at h
      · exact (List.mem_cons.mp h).imp_right (List.mem_cons_of_mem d)
      · exact List.mem_cons.mp h

private theorem pairwise_insert {bs : List Binding}
    (h : bs.Pairwise fun c d => c.name < d.name) :
    (b.insert bs).Pairwise fun c d => c.name < d.name := by
  induction bs with
  | nil => exact List.pairwise_singleton _ b
  | cons c rest ih =>
    obtain ⟨hc, hrest⟩ := List.pairwise_cons.mp h
    unfold Binding.insert
    split
    · rename_i hlt
      refine List.pairwise_cons.mpr ⟨fun d hd => ?_, ih hrest⟩
      rcases mem_insert b hd with rfl | hd
      · exact hlt
      · exact hc d hd
    · rename_i hnlt
      split
      · rename_i heq
        exact List.pairwise_cons.mpr ⟨fun d hd => heq ▸ hc d hd, hrest⟩
      · rename_i hne
        -- Neither before nor at the name of `c`, so the new name stands before it.
        have hlt : b.name < c.name := Std.lt_of_le_of_ne hnlt (Ne.symm hne)
        refine List.pairwise_cons.mpr ⟨fun d hd => ?_, h⟩
        rcases List.mem_cons.mp hd with rfl | hd
        · exact hlt
        · exact List.lt_trans hlt (hc d hd)

variable {s} in
/-- Writing keeps the names in ascending order, each standing there once. -/
theorem pairwise_names_put (h : s.names.Pairwise (· < ·)) :
    (s.put b).names.Pairwise (· < ·) := by
  rw [names, List.pairwise_map] at h ⊢
  exact pairwise_insert b h

end MiniC.Store
