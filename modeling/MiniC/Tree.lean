import MiniC.Text.Column
import MiniC.Text.Quoted
import MiniC.Value

/-!
# Program trees

A program is a tree of nodes: functions hold items, items hold expressions.
Trees that are built by hand may leave an expression out where the language
wants one, carry operators and constants the language does not know, and put
any node anywhere; a left-out expression is a `hole`.

Trees have a one-line text, which messages use to name an expression.
-/

namespace MiniC

open Text

/-- A literal in a tree. -/
inductive Constant where
  /-- A number. -/
  | number (v : Value)
  /-- A string. -/
  | string (s : Bytes)
  /-- A constant of a kind outside the language, known by its number and an integer. -/
  | other (kind : Int) (i : Int64)
  deriving DecidableEq

/-- An expression. -/
inductive Expr where
  /-- A left-out expression. -/
  | hole
  /-- A literal. -/
  | const (c : Constant)
  /-- A variable. -/
  | var (name : Bytes)
  /-- Two operands joined by the sign of an operator. -/
  | binary (op : Bytes) (left right : Expr)
  /-- An assignment; whether its target can be assigned is decided when it is run. -/
  | assign (op : Bytes) (target value : Expr)
  /-- A call. -/
  | call (name : Bytes) (args : List Expr)

/-- A node of a program tree. -/
inductive Node where
  /-- A whole program. -/
  | program (decls : List Node)
  /-- A function without a body. -/
  | prototype (returnType name : Bytes) (params : List Node)
  /-- A function with the items of its body. -/
  | function (returnType name : Bytes) (params items : List Node)
  /-- A group of items. -/
  | block (items : List Node)
  /-- A declaration; a hole stands for a missing initializer. -/
  | decl (type name : Bytes) (init : Expr)
  /-- A return; a hole stands for a missing value. -/
  | ret (value : Expr)
  /-- An expression as a statement, or a left-out node. -/
  | expr (e : Expr)

/-- A program: its top-level declarations in order. -/
structure Program where
  /-- The declarations. -/
  decls : List Node

/-- A program as a tree. -/
def Program.node (p : Program) : Node := .program p.decls

namespace Constant

/-- The name of a constant's kind. -/
def kindName : Constant → String
  | .number v => v.kindName
  | .string _ => "string"
  | .other kind _ => "ConstKind(" ++ toString kind ++ ")"

/-- A constant as text: numbers as they are reported, strings in quotes. -/
def text : Constant → Bytes
  | .number v => v.text
  | .string s => quoted s
  | .other _ i => toString i.toInt

end Constant

namespace Expr

/-- Whether an expression is left out. -/
def isHole : Expr → Bool
  | .hole => true
  | _ => false

mutual

/-- An expression as text, fully bracketed. -/
def text : Expr → Bytes
  | .hole => "%!s(<nil>)"
  | .const c => c.text
  | .var name => name
  | .binary op left right => "(" ++ left.text ++ " " ++ op ++ " " ++ right.text ++ ")"
  | .assign op target value =>
    "Assignment(" ++ target.text ++ " " ++ op ++ " " ++ value.text ++ ")"
  | .call name args =>
    "FuncCall(" ++ name ++ ", args=[" ++ [space].intercalate (argTexts args) ++ "])"

/-- The texts of arguments; a hole among them is written short. -/
def argTexts : List Expr → List Bytes
  | [] => []
  | .hole :: rest => "<nil>" :: argTexts rest
  | arg :: rest => arg.text :: argTexts rest

end

end Expr

namespace Node

/-- The text of a group of items. -/
def blockText (items : List Node) : Bytes :=
  "CompoundStmt(len=" ++ toString items.length ++ ")"

/-- The text of a function whose body has the given text. -/
def functionText (returnType name body : Bytes) : Bytes :=
  "FunctionDecl(" ++ returnType ++ " " ++ name ++ ", body=" ++ body ++ ")"

/-- A node as text. -/
def text : Node → Bytes
  | .program decls => "Program(decls=" ++ toString decls.length ++ ")"
  | .prototype returnType name _ => functionText returnType name "<nil>"
  | .function returnType name _ items => functionText returnType name (blockText items)
  | .block items => blockText items
  | .decl type name .hole => "Decl(" ++ type ++ " " ++ name ++ ")"
  | .decl type name init => "Decl(" ++ type ++ " " ++ name ++ " = " ++ init.text ++ ")"
  | .ret .hole => "Return"
  | .ret value => "Return(" ++ value.text ++ ")"
  | .expr e => e.text

end Node

end MiniC
