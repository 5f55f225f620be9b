import MiniC.Operator
import MiniC.Parse.Basic
import MiniC.Tree

/-!
# Expressions

The grammar of expressions is stratified by the ranks of the operators:

* an expression is an operation of the loosest rank, possibly followed by an
  equals sign and a further expression, so assignments group to the right;
* an operation of rank `r` is a chain of operations of the next tighter rank,
  joined by operators of rank `r` and grouped to the left;
* at the bottom stand literals, variables, calls and bracketed expressions.

The parsers do not descend through the ranks. An operation whose operators are
of rank below a bound is read by climbing: a first operand, and then operators
below the bound as they come, each with a right operand in which only tighter
operators stand. Every parser looks at one token to decide and never takes a
token back.
-/

namespace MiniC.Parse

/-- The rank of the operator that a token is, if it is one. -/
def operatorRank? (t : Token) : Option Nat :=
  if t.kind = .operator then (Operator.ofSymbol? t.lexeme).map Operator.rank else none

mutual

/-- Read an expression. -/
def expression (ts : List Token) : Except Fault (Parsed Expr ts.length) :=
  match operation Operator.ranks ts with
  | .error fault => .error fault
  | .ok ⟨left, [], h⟩ => .ok ⟨left, [], h⟩
  | .ok ⟨left, t :: rest, h⟩ =>
    if t.is .operator "=" then
      match expression rest with
      | .error fault => .error fault
      | .ok right => .ok ((right.map (.assign "=" left)).succ.succ.widen h)
    else .ok ⟨left, t :: rest, h⟩
  termination_by (ts.length, 2)
  decreasing_by
  · exact Prod.Lex.right _ (Nat.lt_succ_self _)
  · exact Prod.Lex.left _ _ (Nat.lt_of_succ_lt h)

/-- Read an operation whose operators are of rank below `ranks`. -/
def operation (ranks : Nat) (ts : List Token) : Except Fault (Parsed Expr ts.length) :=
  match primary ts with
  | .error fault => .error fault
  | .ok first =>
    match climb ranks first.value first.rest with
    | .error fault => .error fault
    | .ok whole => .ok (first.andMaybe whole)
  termination_by (ts.length, 1)
  decreasing_by
  · exact Prod.Lex.right _ (Nat.lt_succ_self _)
  · exact Prod.Lex.left _ _ first.shorter

/-- Read further operators of rank below `ranks` behind what was read so far. The right operand
of each holds only operators that bind tighter than it. -/
def climb (ranks : Nat) (left : Expr) (ts : List Token) :
    Except Fault (Parsed Expr (ts.length + 1)) :=
  match ts with
  | [] => .ok (.leaving left [])
  | t :: rest =>
    match operatorRank? t with
    | none => .ok (.leaving left (t :: rest))
    | some rank =>
      if rank < ranks then
        match operation rank rest with
        | .error fault => .error fault
        | .ok right =>
          match climb ranks (.binary t.lexeme left right.value) right.rest with
          | .error fault => .error fault
          | .ok whole => .ok (right.andMaybe whole).succ.succ
      else .ok (.leaving left (t :: rest))
  termination_by (ts.length, 0)
  decreasing_by
  · exact Prod.Lex.left _ _ (Nat.lt_succ_self _)
  · exact Prod.Lex.left _ _ (Nat.lt_succ_of_lt right.shorter)

/-- Read a literal, a variable, a call or a bracketed expression. -/
def primary (ts : List Token) : Except Fault (Parsed Expr ts.length) :=
  match ts with
  | [] => .error ⟨.expression, []⟩
  | t :: rest =>
    if t.kind = .number then .ok (.leaving (.const (.number t.value)) rest)
    else if t.kind = .string then .ok (.leaving (.const (.string t.lexeme)) rest)
    else if t.kind = .identifier then
      match rest with
      | [] => .ok (.leaving (.var t.lexeme) [])
      | u :: rest =>
        if u.is .punct "(" then
          match arguments rest with
          | .error fault => .error fault
          | .ok args => .ok (args.map (.call t.lexeme)).succ.succ
        else .ok (.leaving (.var t.lexeme) (u :: rest))
    else if t.is .punct "(" then
      match expression rest with
      | .error fault => .error fault
      | .ok inner =>
        match exactly .punct ")" inner.rest with
        | .error fault => .error fault
        | .ok close => .ok (inner.before close).succ
    else .error ⟨.expression, t :: rest⟩
  termination_by (ts.length, 0)
  decreasing_by
  · exact Prod.Lex.left _ _ (Nat.lt_succ_of_lt (Nat.lt_succ_self _))
  · exact Prod.Lex.left _ _ (Nat.lt_succ_self _)

/-- Read the arguments of a call up to the closing bracket. -/
def arguments (ts : List Token) : Except Fault (Parsed (List Expr) ts.length) :=
  match ts with
  | [] => .error ⟨.expression, []⟩
  | t :: rest =>
    if t.is .punct ")" then .ok (.leaving [] rest)
    else argumentList (t :: rest)
  termination_by (ts.length, 4)
  decreasing_by exact Prod.Lex.right _ (Nat.lt_succ_self _)

/-- Read one or more arguments, separated by commas, and the closing bracket. -/
def argumentList (ts : List Token) : Except Fault (Parsed (List Expr) ts.length) :=
  match expression ts with
  | .error fault => .error fault
  | .ok ⟨_, [], _⟩ => .error ⟨.token .punct ")", []⟩
  | .ok ⟨arg, t :: rest, h⟩ =>
    if t.is .punct "," then
      match argumentList rest with
      | .error fault => .error fault
      | .ok args => .ok ((args.map (arg :: ·)).succ.succ.widen h)
    else if t.is .punct ")" then .ok ((Parsed.leaving [arg] rest).succ.widen h)
    else .error ⟨.token .punct ")", t :: rest⟩
  termination_by (ts.length, 3)
  decreasing_by
  · exact Prod.Lex.right _ (Nat.lt_succ_self _)
  · exact Prod.Lex.left _ _ (Nat.lt_of_succ_lt h)

end

end MiniC.Parse
