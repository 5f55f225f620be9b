import MiniC.Tree

/-!
# Outlines

The outline of a tree keeps one label per node and the order and depth of the
nodes. Written out, every node takes one line: two spaces for each level of
depth, then its label.
-/

namespace MiniC

open Text

/-- A tree of labels. -/
inductive Outline where
  /-- A label above the outlines of the children. -/
  | node (label : Bytes) (children : List Outline)

namespace Outline

/-- The label at the top. -/
def label : Outline → Bytes
  | .node label _ => label

/-- The outlines of the children. -/
def children : Outline → List Outline
  | .node _ children => children

mutual

/-- The number of nodes. -/
def size : Outline → Nat
  | .node _ children => 1 + sizes children

/-- The number of nodes of several outlines. -/
def sizes : List Outline → Nat
  | [] => 0
  | o :: rest => o.size + sizes rest

end

/-- The line of a label at the given depth. -/
def line (depth : Nat) (label : Bytes) : Bytes :=
  List.replicate (2 * depth) space ++ label ++ "\n"

mutual

/-- The lines of an outline at the given depth, from the top. -/
def lines (depth : Nat) : Outline → List Bytes
  | .node label children => line depth label :: linesAll (depth + 1) children

/-- The lines of several outlines at the given depth. -/
def linesAll (depth : Nat) : List Outline → List Bytes
  | [] => []
  | o :: rest => o.lines depth ++ linesAll depth rest

end

mutual

/-- Every node takes one line. -/
theorem length_lines (depth : Nat) : ∀ o : Outline, (o.lines depth).length = o.size
  | .node label children => by
    rw [lines, size, List.length_cons, length_linesAll, Nat.add_comm]

private theorem length_linesAll (depth : Nat) :
    ∀ os : List Outline, (linesAll depth os).length = sizes os
  | [] => rfl
  | o :: rest => by
    rw [linesAll, sizes, List.length_append, length_lines, length_linesAll]

end

/-- The written outline. -/
def text (o : Outline) : Bytes := (o.lines 0).flatten

end Outline

/-- The label of an expression. -/
def Expr.label : Expr → Bytes
  | .hole => "<nil>"
  | .const c => "Constant: " ++ c.kindName ++ ", " ++ c.text
  | .var name => "Identifier: " ++ name
  | .binary op _ _ => "BinaryOp: " ++ op
  | .assign op _ _ => "Assignment: " ++ op
  | .call name _ => "FuncCall: " ++ name

/-- The direct children of an expression, from left to right. -/
def Expr.children : Expr → List Expr
  | .binary _ left right => [left, right]
  | .assign _ target value => [target, value]
  | .call _ args => args
  | _ => []

/-- The label of a node. -/
def Node.label : Node → Bytes
  | .program _ => "Program:"
  | .prototype returnType name _ => "FunctionDecl: " ++ returnType ++ " " ++ name
  | .function returnType name _ _ => "FunctionDecl: " ++ returnType ++ " " ++ name
  | .block _ => "CompoundStmt:"
  | .decl type name _ => "Decl: " ++ type ++ " " ++ name
  | .ret _ => "Return:"
  | .expr e => e.label

/-- An expression that is there, as a list of at most one node. -/
def Expr.present (e : Expr) : List Expr := if e.isHole then [] else [e]

/-- The direct children of a node, in source order; the body of a function counts as one. -/
def Node.children : Node → List Node
  | .program decls => decls
  | .prototype _ _ params => params
  | .function _ _ params items => params ++ [.block items]
  | .block items => items
  | .decl _ _ init => init.present.map .expr
  | .ret value => value.present.map .expr
  | .expr e => e.children.map .expr

mutual

/-- The outline of an expression. -/
def Expr.outline : Expr → Outline
  | .hole => .node (Expr.label .hole) []
  | .const c => .node (Expr.label (.const c)) []
  | .var name => .node (Expr.label (.var name)) []
  | .binary op left right =>
    .node (Expr.label (.binary op left right)) [left.outline, right.outline]
  | .assign op target value =>
    .node (Expr.label (.assign op target value)) [target.outline, value.outline]
  | .call name args => .node (Expr.label (.call name args)) (Expr.outlines args)

/-- The outlines of several expressions. -/
def Expr.outlines : List Expr → List Outline
  | [] => []
  | e :: rest => e.outline :: Expr.outlines rest

end

mutual

/-- The outline of a node. -/
def Node.outline : Node → Outline
  | .program decls => .node (Node.label (.program decls)) (Node.outlines decls)
  | .prototype returnType name params =>
    .node (Node.label (.prototype returnType name params)) (Node.outlines params)
  | .function returnType name params items =>
    .node (Node.label (.function returnType name params items))
      (Node.outlines params ++ [.node (Node.label (.block items)) (Node.outlines items)])
  | .block items => .node (Node.label (.block items)) (Node.outlines items)
  | .decl type name init =>
    .node (Node.label (.decl type name init)) (init.present.map Expr.outline)
  | .ret value => .node (Node.label (.ret value)) (value.present.map Expr.outline)
  | .expr e => e.outline

/-- The outlines of several nodes. -/
def Node.outlines : List Node → List Outline
  | [] => []
  | n :: rest => n.outline :: Node.outlines rest

end

/-- The outlines of a list are the outlines of its members. -/
theorem Expr.outlines_eq_map (es : List Expr) : Expr.outlines es = es.map Expr.outline := by
  induction es with
  | nil => rfl
  | cons e rest ih => rw [Expr.outlines, ih, List.map_cons]

/-- The outlines of a list are the outlines of its members. -/
theorem Node.outlines_eq_map (ns : List Node) : Node.outlines ns = ns.map Node.outline := by
  induction ns with
  | nil => rfl
  | cons n rest ih => rw [Node.outlines, ih, List.map_cons]

/-- The outline of an expression is its label above the outlines of its children. -/
theorem Expr.outline_eq (e : Expr) :
    e.outline = .node e.label (e.children.map Expr.outline) := by
  cases e with
  | call name args => rw [Expr.outline, Expr.outlines_eq_map, Expr.children]
  | _ => rfl

/-- The outline of a node is its label above the outlines of its children. -/
theorem Node.outline_eq (n : Node) :
    n.outline = .node n.label (n.children.map Node.outline) := by
  have hexpr (es : List Expr) : (es.map Node.expr).map Node.outline = es.map Expr.outline := by
    rw [List.map_map]
    rfl
  cases n with
  | program decls => rw [Node.outline, Node.outlines_eq_map, Node.children]
  | prototype returnType name params => rw [Node.outline, Node.outlines_eq_map, Node.children]
  | function returnType name params items =>
    rw [Node.outline, Node.outlines_eq_map, Node.outlines_eq_map, Node.children,
      List.map_append, List.map_cons, List.map_nil, Node.outline, Node.outlines_eq_map]
  | block items => rw [Node.outline, Node.outlines_eq_map, Node.children]
  | decl type name init => rw [Node.outline, Node.children, hexpr]
  | ret value => rw [Node.outline, Node.children, hexpr]
  | expr e =>
    have h : (Node.expr e).children.map Node.outline = e.children.map Expr.outline :=
      hexpr e.children
    rw [h]
    exact Expr.outline_eq e

end MiniC
