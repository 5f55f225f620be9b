import MiniC.Parse.Expression

/-!
# Declarations, statements and programs

A program is a sequence of functions up to an end token; a token between them
that cannot start a function is skipped. A function has a type, a name, an empty parameter list in
which `void` may stand, and items between braces: declarations and statements.
-/

namespace MiniC.Parse

/-- Read the semicolon behind something that was built. -/
def terminated {α : Type} {n : Nat} (p : Parsed α n) : Except Fault (Parsed α n) :=
  match exactly .punct ";" p.rest with
  | .error fault => .error fault
  | .ok semicolon => .ok (p.before semicolon)

/-- Read the initializer of a declaration, if an equals sign announces one. -/
def initializer (ts : List Token) : Except Fault (Parsed Expr (ts.length + 1)) :=
  match ts with
  | [] => .ok (.leaving .hole [])
  | t :: rest =>
    if t.is .operator "=" then
      match expression rest with
      | .error fault => .error fault
      | .ok init => .ok init.succ.succ
    else .ok (.leaving .hole (t :: rest))

/-- Read a declaration. -/
def declaration (ts : List Token) : Except Fault (Parsed Node ts.length) :=
  match ofKind .type ts with
  | .error fault => .error fault
  | .ok type =>
    match ofKind .identifier type.rest with
    | .error fault => .error fault
    | .ok name =>
      match initializer name.rest with
      | .error fault => .error fault
      | .ok init =>
        terminated (type.andThen (name.andMaybe
          (init.map (.decl type.value.lexeme name.value.lexeme))))

/-- Read the value of a return, unless a semicolon follows at once. -/
def returnValue (ts : List Token) : Except Fault (Parsed Expr (ts.length + 1)) :=
  if next .punct ";" ts then .ok (.leaving .hole ts)
  else
    match expression ts with
    | .error fault => .error fault
    | .ok value => .ok value.succ

/-- Read a return or an expression as a statement. -/
def statement (ts : List Token) : Except Fault (Parsed Node ts.length) :=
  match ts with
  | [] => .error ⟨.expression, []⟩
  | t :: rest =>
    if t.is .keyword "return" then
      match returnValue rest with
      | .error fault => .error fault
      | .ok value => terminated (value.map .ret)
    else
      match expression (t :: rest) with
      | .error fault => .error fault
      | .ok e => terminated (e.map .expr)

/-- Read a declaration if a type comes next, and a statement otherwise. -/
def item (ts : List Token) : Except Fault (Parsed Node ts.length) :=
  match ts with
  | [] => statement []
  | t :: rest => if t.kind = .type then declaration (t :: rest) else statement (t :: rest)

/-- Read items up to the closing brace, which must come before the end. -/
def items (ts : List Token) : Except Fault (Parsed (List Node) ts.length) :=
  match ts with
  | [] => .error ⟨.token .punct "\x7d", []⟩
  | t :: rest =>
    if t.kind = .eof then .error ⟨.token .punct "\x7d", t :: rest⟩
    else if t.is .punct "\x7d" then .ok (.leaving [] rest)
    else
      match item (t :: rest) with
      | .error fault => .error fault
      | .ok head =>
        match items head.rest with
        | .error fault => .error fault
        | .ok tail => .ok (head.andThen (tail.map (head.value :: ·)))
  termination_by ts.length
  decreasing_by exact head.shorter

/-- Read a `void` that stands for an empty parameter list, if there is one. -/
def optionalVoid (ts : List Token) : Parsed Unit (ts.length + 1) :=
  match ts with
  | [] => .leaving () []
  | t :: rest =>
    if t.is .type "void" then (Parsed.leaving () rest).succ else .leaving () (t :: rest)

/-- Read a function. -/
def function (ts : List Token) : Except Fault (Parsed Node ts.length) :=
  match ofKind .type ts with
  | .error fault => .error fault
  | .ok type =>
    match ofKind .identifier type.rest with
    | .error fault => .error fault
    | .ok name =>
      match exactly .punct "(" name.rest with
      | .error fault => .error fault
      | .ok bracket =>
        let parameters := optionalVoid bracket.rest
        match exactly .punct ")" parameters.rest with
        | .error fault => .error fault
        | .ok close =>
          match exactly .punct "\x7b" close.rest with
          | .error fault => .error fault
          | .ok brace =>
            match items brace.rest with
            | .error fault => .error fault
            | .ok body =>
              .ok (type.andThen (name.andThen (bracket.andMaybe (parameters.andThen
                (close.andThen (brace.andThen (body.map
                  (.function type.value.lexeme name.value.lexeme []))))))))

/-- Read functions up to an end token or the end of the tokens, skipping what cannot start one. -/
def functions (ts : List Token) : Except Fault (List Node) :=
  match ts with
  | [] => .ok []
  | t :: rest =>
    if t.kind = .eof then .ok []
    else if t.kind = .type then
      match function (t :: rest) with
      | .error fault => .error fault
      | .ok head =>
        match functions head.rest with
        | .error fault => .error fault
        | .ok tail => .ok (head.value :: tail)
    else functions rest
  termination_by ts.length
  decreasing_by
  · exact head.shorter
  · exact Nat.lt_succ_self _

end MiniC.Parse
