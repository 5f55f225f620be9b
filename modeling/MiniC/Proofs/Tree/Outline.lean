import MiniC.Proofs.Text.Unbroken
import MiniC.Tree.Outline

/-!
# Reading outlines

A written outline can be read back if its labels hold no line feed and do not start
with a space. It is cut into lines at the line feeds, and each line into its depth
and its label where the spaces end. A label has the lines behind it that are
deeper than it is below it, up to the first one that is not.
-/

namespace MiniC

open Text

/-! ## Lines -/

namespace Text

theorem append_lineFeed_inj {bs cs rest rest' : Bytes} (hb : Unbroken bs) (hc : Unbroken cs)
    (h : bs ++ lineFeed :: rest = cs ++ lineFeed :: rest') : bs = cs ∧ rest = rest' := by
  induction bs generalizing cs with
  | nil =>
    cases cs with
    | nil => exact ⟨rfl, (List.cons.inj h).2⟩
    | cons c cs =>
      obtain ⟨rfl, -⟩ := List.cons.inj h
      exact absurd List.mem_cons_self hc
  | cons b bs ih =>
    cases cs with
    | nil =>
      obtain ⟨rfl, -⟩ := List.cons.inj h
      exact absurd List.mem_cons_self hb
    | cons c cs =>
      obtain ⟨rfl, htail⟩ := List.cons.inj h
      obtain ⟨rfl, hrest⟩ :=
        ih (mt (List.mem_cons_of_mem _) hb) (mt (List.mem_cons_of_mem _) hc) htail
      exact ⟨rfl, hrest⟩

/-- A text is cut into lines in one way. -/
theorem flatten_inj {ws vs : List Bytes} (hw : ∀ w ∈ ws, IsLine w) (hv : ∀ v ∈ vs, IsLine v)
    (h : ws.flatten = vs.flatten) : ws = vs := by
  induction ws generalizing vs with
  | nil =>
    cases vs with
    | nil => rfl
    | cons v vs =>
      obtain ⟨bs, -, rfl⟩ := (List.forall_mem_cons.mp hv).1
      simp at h
  | cons w ws ih =>
    obtain ⟨⟨bs, hbs, rfl⟩, hws⟩ := List.forall_mem_cons.mp hw
    cases vs with
    | nil => simp at h
    | cons v vs =>
      obtain ⟨⟨cs, hcs, rfl⟩, hvs⟩ := List.forall_mem_cons.mp hv
      simp only [List.flatten_cons, List.append_assoc, List.singleton_append] at h
      obtain ⟨rfl, hrest⟩ := append_lineFeed_inj hbs hcs h
      rw [ih hws hvs hrest]

theorem replicate_append_inj {b : UInt8} {m n : Nat} {bs cs : Bytes} (hb : bs.head? ≠ some b)
    (hc : cs.head? ≠ some b) (h : List.replicate m b ++ bs = List.replicate n b ++ cs) :
    m = n ∧ bs = cs := by
  induction m generalizing n with
  | zero =>
    cases n with
    | zero => exact ⟨rfl, h⟩
    | succ n =>
      obtain rfl : bs = b :: (List.replicate n b ++ cs) := h
      exact absurd rfl hb
  | succ m ih =>
    cases n with
    | zero =>
      obtain rfl : b :: (List.replicate m b ++ bs) = cs := h
      exact absurd rfl hc
    | succ n =>
      obtain ⟨rfl, hrest⟩ := ih (List.cons.inj h).2
      exact ⟨rfl, hrest⟩

end Text

namespace Outline

/-- A label that can be told from the rest of its line. -/
structure PlainLabel (label : Bytes) : Prop where
  /-- It does not break the line. -/
  unbroken : Unbroken label
  /-- It does not start with a space. -/
  head : label.head? ≠ some space

/-- All labels are plain. -/
inductive Plain : Outline → Prop
  | node {label : Bytes} {children : List Outline} :
    PlainLabel label → (∀ o ∈ children, Plain o) → Plain (.node label children)

theorem isLine_line (depth : Nat) {label : Bytes} (h : Unbroken label) :
    IsLine (line depth label) := by
  have hspaces : Unbroken (List.replicate (2 * depth) space) := fun hfeed =>
    absurd (List.eq_of_mem_replicate hfeed) (by decide)
  exact isLine_append_newline.mpr (unbroken_append.mpr ⟨hspaces, h⟩)

/-- A line tells its depth and its label. -/
theorem line_inj {depth depth' : Nat} {label label' : Bytes} (hl : PlainLabel label)
    (hl' : PlainLabel label') (h : line depth label = line depth' label') :
    depth = depth' ∧ label = label' := by
  obtain ⟨hdepth, hlabel⟩ := replicate_append_inj hl.head hl'.head (List.append_cancel_right h)
  exact ⟨by omega, hlabel⟩

mutual

theorem isLine_of_mem_lines (depth : Nat) : {o : Outline} → o.Plain →
    ∀ w ∈ o.lines depth, IsLine w
  | .node label children, .node hl hc => by
    rw [lines, List.forall_mem_cons]
    exact ⟨isLine_line depth hl.unbroken, isLine_of_mem_linesAll (depth + 1) children hc⟩

theorem isLine_of_mem_linesAll (depth : Nat) : (os : List Outline) → (∀ o ∈ os, o.Plain) →
    ∀ w ∈ linesAll depth os, IsLine w
  | [], _ => List.forall_mem_nil _
  | o :: rest, h => by
    obtain ⟨ho, hrest⟩ := List.forall_mem_cons.mp h
    rw [linesAll, List.forall_mem_append]
    exact ⟨isLine_of_mem_lines depth ho, isLine_of_mem_linesAll depth rest hrest⟩

end

/-! ## Trees -/

/-- Lines that do not go on with outlines at the given depth: there are none, or the first of them
is less deep. -/
inductive Shallow (depth : Nat) : List Bytes → Prop
  | nil : Shallow depth []
  | cons {shallower : Nat} {label : Bytes} {rest : List Bytes} :
    shallower < depth → PlainLabel label → Shallow depth (line shallower label :: rest)

/-- Behind the children of an outline stand its siblings. -/
theorem Shallow.siblings {depth : Nat} {os : List Outline} {rest : List Bytes}
    (h : Shallow depth rest) (hos : ∀ o ∈ os, o.Plain) :
    Shallow (depth + 1) (linesAll depth os ++ rest) := by
  cases os with
  | nil =>
    cases h with
    | nil => exact .nil
    | cons hlt hl => exact .cons (by omega) hl
  | cons o os =>
    cases (List.forall_mem_cons.mp hos).1 with
    | node hl _ => exact .cons (Nat.lt_succ_self depth) hl

/-- An outline does not start with a line that is less deep. -/
theorem Shallow.ne_lines {depth : Nat} {rest rest' : List Bytes} {label : Bytes}
    (h : Shallow depth rest) (hl : PlainLabel label) : rest ≠ line depth label :: rest' := by
  rintro rfl
  generalize hw : line depth label = w at h
  cases h with
  | cons hlt hl' =>
    obtain ⟨rfl, -⟩ := line_inj hl hl' hw
    exact Nat.lt_irrefl _ hlt

/-- The lines of outlines at one depth tell the outlines, and where they end. -/
theorem linesAll_append_inj (depth : Nat) : (os os' : List Outline) → {rest rest' : List Bytes} →
    (∀ o ∈ os, o.Plain) → (∀ o ∈ os', o.Plain) → Shallow depth rest → Shallow depth rest' →
    linesAll depth os ++ rest = linesAll depth os' ++ rest' → os = os' ∧ rest = rest'
  | [], [], _, _, _, _, _, _, h => ⟨rfl, h⟩
  | [], .node label children :: os', rest, rest', _, hos', hrest, _, h => by
    cases (List.forall_mem_cons.mp hos').1 with
    | node hl _ => exact absurd h (hrest.ne_lines hl)
  | .node label children :: os, [], rest, rest', hos, _, _, hrest', h => by
    cases (List.forall_mem_cons.mp hos).1 with
    | node hl _ => exact absurd h.symm (hrest'.ne_lines hl)
  | .node label children :: os, .node label' children' :: os', rest, rest', hos, hos', hrest,
      hrest', h => by
    obtain ⟨⟨hl, hc⟩, htail⟩ := List.forall_mem_cons.mp hos
    obtain ⟨⟨hl', hc'⟩, htail'⟩ := List.forall_mem_cons.mp hos'
    simp only [linesAll, lines, List.cons_append, List.append_assoc, List.cons.injEq] at h
    obtain ⟨hline, hbelow⟩ := h
    obtain ⟨-, rfl⟩ := line_inj hl hl' hline
    obtain ⟨rfl, hbehind⟩ := linesAll_append_inj (depth + 1) children children' hc hc'
      (hrest.siblings htail) (hrest'.siblings htail') hbelow
    obtain ⟨rfl, hend⟩ := linesAll_append_inj depth os os' htail htail' hrest hrest' hbehind
    exact ⟨rfl, hend⟩

/-- The text of a plain outline tells the outline. -/
theorem text_inj {o o' : Outline} (ho : o.Plain) (ho' : o'.Plain) (h : o.text = o'.text) :
    o = o' := by
  have hlines : o.lines 0 = o'.lines 0 :=
    flatten_inj (isLine_of_mem_lines 0 ho) (isLine_of_mem_lines 0 ho') h
  have hall : linesAll 0 [o] ++ [] = linesAll 0 [o'] ++ [] := by
    simp only [linesAll, hlines]
  have hone := linesAll_append_inj 0 [o] [o'] (List.forall_mem_singleton.mpr ho)
    (List.forall_mem_singleton.mpr ho') .nil .nil hall
  exact List.singleton_inj.mp hone.1

end Outline

end MiniC
