import Mathlib.Data.List.Basic
import MiniC.Tree.Dump

/-!
# What a dump writes

A dump writes one line for each node, from the top down, until a write is
refused. The nodes are those that are reached through children, each with its
depth. A sink without a limit takes all of their lines; one that accepts only so
many takes as many of the first lines, refuses one more and is left alone.
-/

namespace MiniC

open Text

/-! ## Writing to a sink -/

namespace Sink

/-- The sink behind a write, accepted or not. -/
def offer (s : Sink) (w : Bytes) : Sink := (s.write w).2

/-- The sink behind several writes, each of them tried whatever became of those before it. -/
def offerAll (s : Sink) (ws : List Bytes) : Sink := ws.foldl offer s

@[simp] theorem offerAll_nil (s : Sink) : s.offerAll [] = s := rfl

theorem offerAll_cons (s : Sink) (w : Bytes) (ws : List Bytes) :
    s.offerAll (w :: ws) = (s.offer w).offerAll ws := rfl

theorem offerAll_append (s : Sink) (ws vs : List Bytes) :
    s.offerAll (ws ++ vs) = (s.offerAll ws).offerAll vs :=
  List.foldl_append

/-- A sink without a limit accepts every write. -/
theorem offerAll_of_free {s : Sink} (h : s.room = none) (ws : List Bytes) :
    s.offerAll ws = { s with accepted := ws.reverse ++ s.accepted } := by
  obtain ⟨room, accepted, refused⟩ := s
  obtain rfl : room = none := h
  induction ws generalizing accepted with
  | nil => rfl
  | cons w ws ih =>
    rw [offerAll_cons, offer, write]
    dsimp only
    rw [ih]
    simp

/-- A sink with a limit accepts as many writes as there is room for, and refuses the others. -/
theorem offerAll_of_limited {s : Sink} {k : Nat} (h : s.room = some k) (ws : List Bytes) :
    s.offerAll ws =
      { room := some (k - ws.length)
        accepted := (ws.take k).reverse ++ s.accepted
        refused := s.refused + (ws.length - k) } := by
  obtain ⟨room, accepted, refused⟩ := s
  obtain rfl : room = some k := h
  induction ws generalizing k accepted refused with
  | nil => simp
  | cons w ws ih =>
    cases k with
    | zero =>
      rw [offerAll_cons, offer, write]
      dsimp only
      rw [ih]
      simp [Nat.add_assoc, Nat.add_comm 1]
    | succ k =>
      rw [offerAll_cons, offer, write]
      dsimp only
      rw [ih]
      simp

theorem writes_offerAll_ofLimit_none (ws : List Bytes) :
    ((ofLimit none).offerAll ws).writes = ws := by
  rw [offerAll_of_free rfl]
  simp [writes, ofLimit]

theorem writes_offerAll_ofLimit_some (k : Nat) (ws : List Bytes) :
    ((ofLimit (some k)).offerAll ws).writes = ws.take k := by
  rw [offerAll_of_limited rfl]
  simp [writes, ofLimit]

/-- Write texts in order until one is refused; the answer is whether all of them were accepted. -/
def writeAll : List Bytes → Sink → Bool × Sink
  | [], s => (true, s)
  | w :: rest, s =>
    match s.write w with
    | (false, s) => (false, s)
    | (true, s) => writeAll rest s

/-- Texts in front of others are written first, and the others only if all of these are accepted. -/
theorem writeAll_append (ws vs : List Bytes) (s : Sink) :
    writeAll (ws ++ vs) s =
      match writeAll ws s with
      | (false, s) => (false, s)
      | (true, s) => writeAll vs s := by
  induction ws generalizing s with
  | nil => rfl
  | cons w rest ih =>
    rw [List.cons_append, writeAll, writeAll]
    cases s.write w with
    | mk accepted t =>
      cases accepted with
      | false => rfl
      | true => exact ih t

theorem writeAll_of_free {s : Sink} (h : s.room = none) (ws : List Bytes) :
    writeAll ws s = (true, s.offerAll ws) := by
  induction ws generalizing s with
  | nil => rfl
  | cons w rest ih =>
    have hwrite : s.write w = (true, s.offer w) := by simp [offer, write, h]
    have hroom : (s.offer w).room = none := by simp [offer, write, h]
    rw [writeAll, hwrite, offerAll_cons]
    exact ih hroom

/-- A sink with a limit is offered one text more than it has room for, and no further ones. -/
theorem writeAll_of_limited {s : Sink} {k : Nat} (h : s.room = some k) (ws : List Bytes) :
    writeAll ws s = (decide (ws.length ≤ k), s.offerAll (ws.take (k + 1))) := by
  induction ws generalizing s k with
  | nil => simp [writeAll]
  | cons w rest ih =>
    cases k with
    | zero =>
      have hwrite : s.write w = (false, s.offer w) := by simp [offer, write, h]
      rw [writeAll, hwrite]
      simp [offerAll_cons]
    | succ k =>
      have hwrite : s.write w = (true, s.offer w) := by simp [offer, write, h]
      have hroom : (s.offer w).room = some k := by simp [offer, write, h]
      rw [writeAll, hwrite]
      dsimp only
      rw [ih hroom, List.take_succ_cons, offerAll_cons]
      simp

/-- Texts that a sink has room for are all accepted. -/
theorem writeAll_of_fits {s : Sink} {ws : List Bytes} (h : ∀ k, s.room = some k → ws.length ≤ k) :
    writeAll ws s = (true, s.offerAll ws) := by
  cases hroom : s.room with
  | none => exact writeAll_of_free hroom ws
  | some k =>
    have hle := h k hroom
    rw [writeAll_of_limited hroom, decide_eq_true hle, List.take_of_length_le (by omega)]

theorem room_offerAll (s : Sink) (ws : List Bytes) :
    (s.offerAll ws).room = s.room.map (· - ws.length) := by
  cases hroom : s.room with
  | none => rw [offerAll_of_free hroom, hroom, Option.map_none]
  | some k => rw [offerAll_of_limited hroom, Option.map_some]

end Sink

/-! ## Outlines -/

namespace Outline

theorem linesAll_eq_flatMap (depth : Nat) (os : List Outline) :
    linesAll depth os = os.flatMap (lines depth) := by
  induction os with
  | nil => rfl
  | cons o rest ih => rw [linesAll, ih, List.flatMap_cons]

mutual

/-- Dumping an outline is writing its lines until one is refused. -/
theorem dump_eq_writeAll (depth : Nat) : (o : Outline) → (s : Sink) →
    o.dump depth s = Sink.writeAll (o.lines depth) s
  | .node label children, s => by
    rw [dump, lines, Sink.writeAll]
    cases s.write (line depth label) with
    | mk accepted t =>
      cases accepted with
      | false => rfl
      | true => exact dumpAll_eq_writeAll (depth + 1) children t

theorem dumpAll_eq_writeAll (depth : Nat) : (os : List Outline) → (s : Sink) →
    dumpAll depth os s = Sink.writeAll (linesAll depth os) s
  | [], _ => rfl
  | o :: rest, s => by
    rw [dumpAll, linesAll, Sink.writeAll_append, dump_eq_writeAll depth o s]
    cases Sink.writeAll (o.lines depth) s with
    | mk accepted t =>
      cases accepted with
      | false => rfl
      | true => exact dumpAll_eq_writeAll depth rest t

end

theorem size_le_sizes {o : Outline} {os : List Outline} (h : o ∈ os) : o.size ≤ sizes os := by
  induction os with
  | nil => cases h
  | cons o' rest ih =>
    rw [sizes]
    cases h with
    | head => exact Nat.le_add_right _ _
    | tail _ h => exact Nat.le_add_left_of_le (ih h)

end Outline

/-! ## Nodes -/

namespace Node

/-- The outline of a child is smaller. -/
theorem size_outline_lt_of_mem_children {n m : Node} (h : m ∈ n.children) :
    m.outline.size < n.outline.size := by
  have hle := Outline.size_le_sizes (List.mem_map_of_mem (f := outline) h)
  rw [n.outline_eq, Outline.size]
  omega

/-- The nodes that are reached from a node through children, each with its depth: first the node
itself, and then what is reached from its children in order. -/
def preorder (depth : Nat) (n : Node) : List (Nat × Node) :=
  (depth, n) :: n.children.attach.flatMap fun m => m.1.preorder (depth + 1)
termination_by n.outline.size
decreasing_by exact size_outline_lt_of_mem_children m.2

theorem preorder_eq (depth : Nat) (n : Node) :
    n.preorder depth = (depth, n) :: n.children.flatMap (preorder (depth + 1)) := by
  rw [preorder]
  simp

/-- The line of a node at its depth: two spaces for each level, and the label. -/
def dumpLine (depth : Nat) (n : Node) : Bytes :=
  List.replicate (2 * depth) space ++ n.label ++ "\n"

/-- The lines of what is reached from a node. -/
def dumpLines (n : Node) : List Bytes := (n.preorder 0).map fun m => dumpLine m.1 m.2

theorem length_dumpLines (n : Node) : n.dumpLines.length = (n.preorder 0).length := by
  rw [dumpLines, List.length_map]

theorem length_dumpLines_pos (n : Node) : 0 < n.dumpLines.length := by
  rw [length_dumpLines, preorder_eq]
  exact Nat.succ_pos _

/-- The lines of an outline are those of the nodes that are reached through children. -/
theorem lines_outline (depth : Nat) (n : Node) :
    n.outline.lines depth = (n.preorder depth).map fun m => dumpLine m.1 m.2 := by
  induction depth, n using preorder.induct with
  | case1 depth n ih =>
    rw [n.outline_eq, Outline.lines, Outline.linesAll_eq_flatMap, preorder_eq, List.map_cons,
      List.map_flatMap, List.flatMap_map]
    congr 1
    exact List.flatMap_congr fun m hm => ih ⟨m, hm⟩

/-- Dumping a node is writing the lines of what is reached from it until one is refused. -/
theorem dump_eq_writeAll (n : Node) (s : Sink) : n.dump s = Sink.writeAll n.dumpLines s := by
  rw [dump, Outline.dump_eq_writeAll, lines_outline, dumpLines]

theorem writes_dump (n : Node) : (n.dump (.ofLimit none)).2.writes = n.outline.lines 0 := by
  rw [dump, Outline.dump_eq_writeAll, Sink.writeAll_of_free rfl, Sink.writes_offerAll_ofLimit_none]

/-- A dump to a sink without a limit writes the whole outline. -/
theorem bytes_dump (n : Node) : (n.dump (.ofLimit none)).2.bytes = n.outline.text := by
  rw [Sink.bytes, writes_dump, Outline.text]

/-- A dump to a sink with a limit writes as many of the first lines as the limit allows. If there
are more, one further write is tried, which the sink refuses. -/
theorem dump_of_limited (n : Node) (k : Nat) :
    let result := n.dump (.ofLimit (some k))
    result.2.writes = n.dumpLines.take k ∧
      result.2.refused = (if k < n.dumpLines.length then 1 else 0) ∧
      (result.1 = false ↔ k < n.dumpLines.length) := by
  intro result
  have hresult : result = (decide (n.dumpLines.length ≤ k),
      (Sink.ofLimit (some k)).offerAll (n.dumpLines.take (k + 1))) :=
    (n.dump_eq_writeAll _).trans (Sink.writeAll_of_limited rfl _)
  rw [hresult]
  refine ⟨?_, ?_, ?_⟩
  · rw [Sink.writes_offerAll_ofLimit_some, List.take_take, Nat.min_eq_left (Nat.le_succ k)]
  · rw [Sink.offerAll_of_limited rfl]
    simp only [Sink.ofLimit, List.length_take]
    split <;> omega
  · simp

end Node

end MiniC
