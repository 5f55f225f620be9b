import MiniC.Proofs.Text.Quoted
import MiniC.Proofs.Tree.Dump
import MiniC.Proofs.Tree.Label

/-!
# Dumps lose nothing

Two trees resemble each other if they are the same but for floating constants, of
which only the texts are the same. The dumps of two compiled programs are the same
exactly if the programs resemble each other.
-/

namespace MiniC

open Text

/-! ## Resemblance -/

/-- Constants that are the same, or floating numbers that are written in the same way. -/
inductive Constant.Resembles : Constant → Constant → Prop
  | refl (c : Constant) : Resembles c c
  | float {f g : Float} :
    floatText f = floatText g → Resembles (.number (.float f)) (.number (.float g))

/-- Expressions that are the same but for their constants, which resemble each other. -/
inductive Expr.Resembles : Expr → Expr → Prop
  | hole : Resembles .hole .hole
  | const {c d : Constant} : c.Resembles d → Resembles (.const c) (.const d)
  | var (name : Bytes) : Resembles (.var name) (.var name)
  | binary {left left' right right' : Expr} (op : Bytes) :
    Resembles left left' → Resembles right right' →
      Resembles (.binary op left right) (.binary op left' right')
  | assign {target target' value value' : Expr} (op : Bytes) :
    Resembles target target' → Resembles value value' →
      Resembles (.assign op target value) (.assign op target' value')
  | call {args args' : List Expr} (name : Bytes) :
    List.Forall₂ Resembles args args' → Resembles (.call name args) (.call name args')

/-- Nodes that are the same but for the constants in them, which resemble each other. -/
inductive Node.Resembles : Node → Node → Prop
  | program {decls decls' : List Node} :
    List.Forall₂ Resembles decls decls' → Resembles (.program decls) (.program decls')
  | prototype {params params' : List Node} (returnType name : Bytes) :
    List.Forall₂ Resembles params params' →
      Resembles (.prototype returnType name params) (.prototype returnType name params')
  | function {params params' items items' : List Node} (returnType name : Bytes) :
    List.Forall₂ Resembles params params' → List.Forall₂ Resembles items items' →
      Resembles (.function returnType name params items)
        (.function returnType name params' items')
  | block {items items' : List Node} :
    List.Forall₂ Resembles items items' → Resembles (.block items) (.block items')
  | decl {init init' : Expr} (type name : Bytes) :
    init.Resembles init' → Resembles (.decl type name init) (.decl type name init')
  | ret {value value' : Expr} : value.Resembles value' → Resembles (.ret value) (.ret value')
  | expr {e e' : Expr} : e.Resembles e' → Resembles (.expr e) (.expr e')

/-! ## From dumps to trees -/

/-- An integer can be told from its decimal notation. -/
theorem repr_inj {i j : Int} (h : i.repr = j.repr) : i = j := by
  have hnat {m n : Nat} (h : Nat.toDigits 10 m = Nat.toDigits 10 n) : m = n := by
    rw [← Nat.ofDigitChars_ten_toDigits (n := m), h, Nat.ofDigitChars_ten_toDigits]
  have hsign {m n : Nat} : Nat.toDigits 10 m ≠ '-' :: Nat.toDigits 10 n := by
    intro h
    have hmem : '-' ∈ Nat.toDigits 10 m := h ▸ List.mem_cons_self
    exact absurd (Nat.isDigit_of_mem_toDigits (by decide) (Nat.le_refl 10) hmem) (by decide)
  have hchars := congrArg String.toList h
  rw [Int.repr_eq_if, Int.repr_eq_if] at hchars
  simp only [Nat.repr_eq_ofList_toDigits] at hchars
  split at hchars
  · split at hchars
    · have := hnat (by simpa using hchars)
      omega
    · exact absurd (by simpa using hchars) hsign
  · split at hchars
    · exact absurd (by simpa using hchars.symm) hsign
    · have := hnat (by simpa using hchars)
      omega

/-- The names of the kinds of literals. -/
def literalKinds : List String := ["int", "float", "string"]

theorem Constant.kindName_mem {c : Constant} (h : (Expr.const c).WellBuilt) :
    c.kindName ∈ literalKinds := by
  cases h with
  | number v => cases v <;> simp [Constant.kindName, Value.kindName, literalKinds]
  | string s => simp [Constant.kindName, literalKinds]

/-- A literal can be told from its label, if it is not floating. -/
theorem Constant.resembles_of_detail {c d : Constant} (hc : (Expr.const c).WellBuilt)
    (hd : (Expr.const d).WellBuilt) (h : (Expr.const c).detail = (Expr.const d).detail) :
    c.Resembles d := by
  have hfree : PrefixFree (literalKinds.map fun kind => encode kind ++ encode ", ") := by decide
  obtain ⟨hkinds, htext⟩ := hfree.append_inj (List.mem_map_of_mem (Constant.kindName_mem hc))
    (List.mem_map_of_mem (Constant.kindName_mem hd)) h
  have hkind : c.kindName = d.kindName := encode_inj (List.append_cancel_right hkinds)
  cases hc with
  | number v =>
    cases hd with
    | number w =>
      cases v with
      | int i =>
        cases w with
        | int j =>
          have hrepr : i.toInt.repr = j.toInt.repr := encode_inj htext
          rw [Int64.toInt_inj.mp (repr_inj hrepr)]
          exact .refl _
        | float g => exact absurd hkind (show "int" ≠ "float" by decide)
      | float f =>
        cases w with
        | int j => exact absurd hkind (show "float" ≠ "int" by decide)
        | float g => exact .float (encode_inj htext)
    | string t => cases v <;> exact absurd hkind (by simp [Constant.kindName, Value.kindName])
  | string s =>
    cases hd with
    | number w => cases w <;> exact absurd hkind (by simp [Constant.kindName, Value.kindName])
    | string t =>
      rw [quoted_inj (encode_inj htext)]
      exact .refl _

/-- Lists with the same outlines resemble each other if their members do. -/
theorem forall₂_of_map_eq {α : Type} {R : α → α → Prop} {outline : α → Outline} {as bs : List α}
    (hR : ∀ a ∈ as, ∀ b ∈ bs, outline a = outline b → R a b)
    (h : as.map outline = bs.map outline) : List.Forall₂ R as bs := by
  induction as generalizing bs with
  | nil =>
    cases bs with
    | nil => exact .nil
    | cons b bs => cases h
  | cons a as ih =>
    cases bs with
    | nil => cases h
    | cons b bs =>
      obtain ⟨hab, hrest⟩ := List.cons.inj h
      refine .cons (hR a List.mem_cons_self b List.mem_cons_self hab) (ih ?_ hrest)
      exact fun a' ha' b' hb' =>
        hR a' (List.mem_cons_of_mem a ha') b' (List.mem_cons_of_mem b hb')

/-- Expressions with the same outline resemble each other. -/
theorem Expr.WellBuilt.resembles {e e' : Expr} (he : e.WellBuilt) (he' : e'.WellBuilt)
    (h : e.outline = e'.outline) : e.Resembles e' := by
  induction he generalizing e' with
  | number v =>
    obtain ⟨hheading, hdetail, -⟩ := Expr.outline_inj h
    cases he' with
    | number w => exact .const (Constant.resembles_of_detail (.number v) (.number w) hdetail)
    | string t => exact .const (Constant.resembles_of_detail (.number v) (.string t) hdetail)
    | _ => cases hheading
  | string s =>
    obtain ⟨hheading, hdetail, -⟩ := Expr.outline_inj h
    cases he' with
    | number w => exact .const (Constant.resembles_of_detail (.string s) (.number w) hdetail)
    | string t => exact .const (Constant.resembles_of_detail (.string s) (.string t) hdetail)
    | _ => cases hheading
  | var name =>
    obtain ⟨hheading, hdetail, -⟩ := Expr.outline_inj h
    cases he' with
    | var name' =>
      obtain rfl : name = name' := hdetail
      exact .var name
    | _ => cases hheading
  | @binary op left right _ _ _ ihl ihr =>
    obtain ⟨hheading, hdetail, hchildren⟩ := Expr.outline_inj h
    cases he' with
    | @binary op' left' right' _ hl hr =>
      obtain rfl : op = op' := hdetail
      obtain ⟨hleft, hright⟩ :
          left.outline = left'.outline ∧ right.outline = right'.outline := by
        simpa [Expr.children] using hchildren
      exact .binary op (ihl hl hleft) (ihr hr hright)
    | _ => cases hheading
  | @assign op target value _ _ iht ihv =>
    obtain ⟨hheading, hdetail, hchildren⟩ := Expr.outline_inj h
    cases he' with
    | @assign op' target' value' ht hv =>
      obtain rfl : op = op' := hdetail
      obtain ⟨htarget, hvalue⟩ :
          target.outline = target'.outline ∧ value.outline = value'.outline := by
        simpa [Expr.children] using hchildren
      exact .assign op (iht ht htarget) (ihv hv hvalue)
    | _ => cases hheading
  | @call name args _ ih =>
    obtain ⟨hheading, hdetail, hchildren⟩ := Expr.outline_inj h
    cases he' with
    | @call name' args' hargs =>
      obtain rfl : name = name' := hdetail
      exact .call name (forall₂_of_map_eq (fun a ha b hb => ih a ha (hargs b hb)) hchildren)
    | _ => cases hheading

/-- Whether an expression is there can be told from the children of its node, and so can the
expression. -/
theorem Expr.resembles_of_present {e e' : Expr} (he : e = .hole ∨ e.WellBuilt)
    (he' : e' = .hole ∨ e'.WellBuilt)
    (h : (e.present.map Node.expr).map Node.outline = (e'.present.map Node.expr).map Node.outline) :
    e.Resembles e' := by
  have hthere {e : Expr} (he : e.WellBuilt) : e.present = [e] := by cases he <;> rfl
  rcases he with rfl | he
  · rcases he' with rfl | he'
    · exact .hole
    · rw [hthere he'] at h
      cases h
  · rcases he' with rfl | he'
    · rw [hthere he] at h
      cases h
    · rw [hthere he, hthere he'] at h
      exact he.resembles he' (List.cons.inj h).1

/-- Items with the same outline resemble each other. -/
theorem Node.WellBuiltItem.resembles {n n' : Node} (hn : n.WellBuiltItem) (hn' : n'.WellBuiltItem)
    (ht : n.TypedItem) (ht' : n'.TypedItem) (h : n.outline = n'.outline) : n.Resembles n' := by
  obtain ⟨hheading, hdetail, hchildren⟩ := Node.outline_inj h
  cases hn with
  | decl hinit =>
    cases hn' with
    | decl hinit' =>
      obtain ⟨rfl, rfl⟩ := IsType.append_inj ht ht' hdetail
      exact .decl _ _ (Expr.resembles_of_present hinit hinit' hchildren)
    | ret => cases hheading
    | expr he => cases he <;> cases hheading
  | ret hvalue =>
    cases hn' with
    | decl => cases hheading
    | ret hvalue' => exact .ret (Expr.resembles_of_present hvalue hvalue' hchildren)
    | expr he => cases he <;> cases hheading
  | expr he =>
    cases hn' with
    | decl => cases he <;> cases hheading
    | ret => cases he <;> cases hheading
    | expr he' => exact .expr (he.resembles he' h)

/-- Functions with the same outline resemble each other. -/
theorem Node.WellBuiltFunction.resembles {n n' : Node} (hn : n.WellBuiltFunction)
    (hn' : n'.WellBuiltFunction) (ht : n.TypedFunction) (ht' : n'.TypedFunction)
    (h : n.outline = n'.outline) : n.Resembles n' := by
  obtain ⟨-, hdetail, hchildren⟩ := Node.outline_inj h
  cases hn with
  | intro hitems =>
    cases hn' with
    | intro hitems' =>
      obtain ⟨rfl, rfl⟩ := IsType.append_inj ht.1 ht'.1 hdetail
      have hbody := (Node.outline_inj (List.cons.inj hchildren).1).2.2
      refine .function _ _ .nil (forall₂_of_map_eq (fun m hm m' hm' => ?_) hbody)
      exact (hitems m hm).resembles (hitems' m' hm') (ht.2 m hm) (ht'.2 m' hm')

/-! ## From trees to dumps -/

theorem Constant.Resembles.text_eq {c d : Constant} (h : c.Resembles d) :
    c.kindName = d.kindName ∧ c.text = d.text := by
  cases h with
  | refl => exact ⟨rfl, rfl⟩
  | float h => exact ⟨rfl, congrArg encode h⟩

mutual

theorem Expr.Resembles.outline_eq : {e e' : Expr} → e.Resembles e' → e.outline = e'.outline
  | .hole, _, .hole => rfl
  | .const c, _, .const h => by
    rw [Expr.outline, Expr.outline, Expr.label, Expr.label, h.text_eq.1, h.text_eq.2]
  | .var name, _, .var _ => rfl
  | .binary op left right, _, .binary _ hl hr => by
    rw [Expr.outline, Expr.outline, hl.outline_eq, hr.outline_eq]
    rfl
  | .assign op target value, _, .assign _ ht hv => by
    rw [Expr.outline, Expr.outline, ht.outline_eq, hv.outline_eq]
    rfl
  | .call name args, _, .call _ h => by
    rw [Expr.outline, Expr.outline, Expr.outlines_eq args h]
    rfl

theorem Expr.outlines_eq : (es : List Expr) → {es' : List Expr} →
    List.Forall₂ Expr.Resembles es es' → Expr.outlines es = Expr.outlines es'
  | [], _, .nil => rfl
  | e :: rest, _, .cons he hrest => by
    rw [Expr.outlines, Expr.outlines, he.outline_eq, Expr.outlines_eq rest hrest]

end

theorem Expr.Resembles.present_eq {e e' : Expr} (h : e.Resembles e') :
    e.present.map Expr.outline = e'.present.map Expr.outline := by
  have heq := h.outline_eq
  cases h with
  | hole => rfl
  | _ => exact congrArg (fun o => [o]) heq

mutual

/-- Trees that resemble each other have the same outline. -/
theorem Node.Resembles.outline_eq : {n n' : Node} → n.Resembles n' → n.outline = n'.outline
  | .program decls, _, .program h => by
    rw [Node.outline, Node.outline, Node.outlines_eq decls h]
    rfl
  | .prototype returnType name params, _, .prototype _ _ h => by
    rw [Node.outline, Node.outline, Node.outlines_eq params h]
    rfl
  | .function returnType name params items, _, .function _ _ hp hi => by
    rw [Node.outline, Node.outline, Node.outlines_eq params hp, Node.outlines_eq items hi]
    rfl
  | .block items, _, .block h => by
    rw [Node.outline, Node.outline, Node.outlines_eq items h]
    rfl
  | .decl type name init, _, .decl _ _ h => by
    rw [Node.outline, Node.outline, h.present_eq]
    rfl
  | .ret value, _, .ret h => by
    rw [Node.outline, Node.outline, h.present_eq]
    rfl
  | .expr e, _, .expr h => h.outline_eq

theorem Node.outlines_eq : (ns : List Node) → {ns' : List Node} →
    List.Forall₂ Node.Resembles ns ns' → Node.outlines ns = Node.outlines ns'
  | [], _, .nil => rfl
  | n :: rest, _, .cons hn hrest => by
    rw [Node.outlines, Node.outlines, hn.outline_eq, Node.outlines_eq rest hrest]

end

/-- The dumps of two compiled programs are the same exactly if the programs are the same but for
floating constants that are written in the same way. -/
theorem Program.dump_eq_iff_resembles {source source' : Bytes} {p q : Program}
    (hp : compile source = .ok p) (hq : compile source' = .ok q) :
    (p.node.dump (.ofLimit none)).2.bytes = (q.node.dump (.ofLimit none)).2.bytes ↔
      p.node.Resembles q.node := by
  rw [Node.bytes_dump, Node.bytes_dump]
  constructor
  · intro h
    have houtline := Outline.text_inj (Program.plain_of_compile hp) (Program.plain_of_compile hq) h
    have hbuilt : p.WellBuilt := Program.wellBuilt_of_parse hp
    have hbuilt' : q.WellBuilt := Program.wellBuilt_of_parse hq
    have htyped := Program.typed_of_compile hp
    have htyped' := Program.typed_of_compile hq
    have hdecls := (Node.outline_inj houtline).2.2
    refine .program (forall₂_of_map_eq (fun d hd d' hd' => ?_) hdecls)
    exact (hbuilt d hd).resembles (hbuilt' d' hd') (htyped d hd) (htyped' d' hd')
  · intro h
    rw [Outline.text, Outline.text, h.outline_eq]

/-- A program with a remainder resembles itself and not the empty program, and the dumps tell. -/
theorem Program.dump_eq_iff_resembles_remainder :
    ∃ p q, compile "int main(){1%0;}" = .ok p ∧ compile [] = .ok q ∧
      p.node.Resembles p.node ∧ ¬ p.node.Resembles q.node ∧
      (p.node.dump (.ofLimit none)).2.bytes ≠ (q.node.dump (.ofLimit none)).2.bytes := by
  have hself := (Program.dump_eq_iff_resembles compile_remainder compile_remainder).mp rfl
  have hother := Program.dump_eq_iff_resembles compile_remainder compile_nil
  have hne : ¬ Node.Resembles _ (Program.mk []).node := mt hother.mpr (by decide)
  exact ⟨_, _, compile_remainder, compile_nil, hself, hne, mt hother.mp hne⟩

end MiniC
