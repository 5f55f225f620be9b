import MiniC.Text.Piece
import MiniC.Tree.Outline

/-!
# Dumping a tree

A dump goes to a sink, which may refuse writes after a while. Every node is one
write, from the top down, and the first refused write ends the dump.
-/

namespace MiniC

/-- A place that output is written to. -/
structure Sink where
  /-- How many further writes are accepted; all of them if there is no limit. -/
  room : Option Nat
  /-- The accepted writes, the latest first. -/
  accepted : List Text.Bytes
  /-- The number of writes that were refused. -/
  refused : Nat
  deriving DecidableEq, Repr

namespace Sink

/-- A sink that accepts as many writes as the limit says, and all of them without one. -/
def ofLimit (limit : Option Nat) : Sink := { room := limit, accepted := [], refused := 0 }

/-- Write to a sink; the answer is whether the write was accepted. -/
def write (s : Sink) (w : Text.Bytes) : Bool × Sink :=
  match s.room with
  | none => (true, { s with accepted := w :: s.accepted })
  | some 0 => (false, { s with refused := s.refused + 1 })
  | some (room + 1) => (true, { s with room := some room, accepted := w :: s.accepted })

/-- The accepted writes in order. -/
def writes (s : Sink) : List Text.Bytes := s.accepted.reverse

/-- Everything that was accepted. -/
def bytes (s : Sink) : Text.Bytes := s.writes.flatten

end Sink

namespace Outline

mutual

/-- Write an outline at the given depth; the answer is whether all of it was accepted. -/
def dump (depth : Nat) : Outline → Sink → Bool × Sink
  | .node label children, s =>
    match s.write (line depth label) with
    | (false, s) => (false, s)
    | (true, s) => dumpAll (depth + 1) children s

/-- Write several outlines at the given depth. -/
def dumpAll (depth : Nat) : List Outline → Sink → Bool × Sink
  | [], s => (true, s)
  | o :: rest, s =>
    match o.dump depth s with
    | (false, s) => (false, s)
    | (true, s) => dumpAll depth rest s

end

end Outline

/-- Write the outline of a tree; the answer is whether all of it was accepted. -/
def Node.dump (n : Node) (s : Sink) : Bool × Sink := n.outline.dump 0 s

/-- What is reported when a write is refused. -/
def writeFailed : String := "write failed"

end MiniC
