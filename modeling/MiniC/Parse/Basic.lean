import MiniC.Token

/-!
# Parsing steps

A parser reads tokens from the front of a list and returns what it built
together with the tokens it left. The result carries a proof that it left fewer
tokens than a given bound, which is what lets parsers call each other without
end in sight and still terminate. A fault says what was wanted and keeps the
tokens that had not been read when it arose.
-/

namespace MiniC.Parse

/-- What a parser wanted to see. -/
inductive Expected where
  /-- The start of an expression. -/
  | expression
  /-- Any token of a kind. -/
  | kind (k : Kind)
  /-- One particular token. -/
  | token (k : Kind) (lexeme : String)
  deriving DecidableEq, Repr

/-- What messages call a wanted token. -/
def Expected.text : Expected → Text.Bytes
  | .expression => "expression"
  | .kind k => k.name
  | .token k lexeme => Token.naming k lexeme

/-- A place where no parser could go on. -/
structure Fault where
  /-- What was wanted there. -/
  expected : Expected
  /-- The tokens from there on. -/
  rest : List Token
  deriving DecidableEq

/-- A result of parsing, with fewer tokens left than a bound. -/
structure Parsed (α : Type) (bound : Nat) where
  /-- What was built. -/
  value : α
  /-- The tokens that were left. -/
  rest : List Token
  /-- Something was read. -/
  shorter : rest.length < bound

namespace Parsed

variable {α β : Type} {n m : Nat}

/-- A result that leaves the given tokens, under the least bound there is. -/
def leaving (value : α) (rest : List Token) : Parsed α (rest.length + 1) :=
  ⟨value, rest, Nat.lt_succ_self _⟩

/-- A result under a bound is a result under any larger bound. -/
def widen (p : Parsed α n) (h : n ≤ m) : Parsed α m :=
  ⟨p.value, p.rest, Nat.lt_of_lt_of_le p.shorter h⟩

/-- A result under a bound is a result under the next bound. -/
def succ (p : Parsed α n) : Parsed α (n + 1) := p.widen (Nat.le_succ n)

/-- Replace what was built. -/
def map (f : α → β) (p : Parsed α n) : Parsed β n := ⟨f p.value, p.rest, p.shorter⟩

/-- A result built from the tokens that an earlier one left, as a result of both. -/
def andThen (p : Parsed α n) (q : Parsed β p.rest.length) : Parsed β n :=
  q.widen (Nat.le_of_lt p.shorter)

/-- A result that may have read nothing behind an earlier one, as a result of both. -/
def andMaybe (p : Parsed α n) (q : Parsed β (p.rest.length + 1)) : Parsed β n :=
  q.widen p.shorter

/-- Keep what was built and leave what a later result left. -/
def before (p : Parsed α n) (q : Parsed β p.rest.length) : Parsed α n :=
  p.andThen (q.map fun _ => p.value)

end Parsed

/-- Read a token of the given kind. -/
def ofKind (k : Kind) : (ts : List Token) → Except Fault (Parsed Token ts.length)
  | [] => .error ⟨.kind k, []⟩
  | t :: rest =>
    if t.kind = k then .ok (.leaving t rest) else .error ⟨.kind k, t :: rest⟩

/-- Read one particular token. -/
def exactly (k : Kind) (lexeme : String) :
    (ts : List Token) → Except Fault (Parsed Token ts.length)
  | [] => .error ⟨.token k lexeme, []⟩
  | t :: rest =>
    if t.is k lexeme then .ok (.leaving t rest)
    else .error ⟨.token k lexeme, t :: rest⟩

/-- Whether the next token is a particular one. -/
def next (k : Kind) (lexeme : String) : List Token → Bool
  | [] => false
  | t :: _ => t.is k lexeme

end MiniC.Parse
