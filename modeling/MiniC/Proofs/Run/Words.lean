import MiniC.Tree

/-!
# Programs over words

A second meaning of programs, with signed words of 64 bits as the only values.
Sums, differences and products are taken exactly and wrapped around, quotients
and remainders cut toward zero, and conditions are one or zero. Whatever has no
word of its own counts as zero: names that were never written, strings, and all
that the language has no rule for. A program has no meaning if it divides by
zero, and for no other reason.
-/

namespace MiniC

open Text

/-- A printed word, with the first argument of the call that prints it. -/
structure PrintedWord where
  /-- The first argument. -/
  format : Expr
  /-- What is printed. -/
  word : Int64

/-- What a program over words works on. -/
structure Memory where
  /-- The word in each variable that was written. -/
  words : Bytes → Option Int64
  /-- The printed words, in order. -/
  prints : List PrintedWord
  /-- The word of the first return, if there was one. -/
  exit : Option Int64

namespace Memory

/-- The memory in which every program starts. -/
def blank : Memory := { words := fun _ => none, prints := [], exit := none }

/-- The word in a variable. -/
def read (m : Memory) (name : Bytes) : Int64 := (m.words name).getD 0

/-- Write a word to a variable. -/
def write (m : Memory) (name : Bytes) (w : Int64) : Memory :=
  { m with words := fun x => if name = x then some w else m.words x }

/-- Return a word, unless one was returned before. -/
def leave (m : Memory) (w : Int64) : Memory :=
  { m with exit := some (m.exit.getD w) }

/-- Call a function. Only `printf` with a variable as its second argument does anything. -/
def call (m : Memory) (name : Bytes) : List Expr → Memory
  | format :: .var x :: _ =>
    if name = "printf" then { m with prints := m.prints ++ [⟨format, m.read x⟩] } else m
  | _ => m

end Memory

/-- The word of a condition. -/
def conditionWord (p : Prop) [Decidable p] : Int64 := if p then 1 else 0

/-- Join two words by the operator with the given sign, unless it divides by zero. -/
def joinWords (sign : Bytes) (x y : Int64) : Option Int64 :=
  if sign = "+" then some (.ofInt (x.toInt + y.toInt))
  else if sign = "-" then some (.ofInt (x.toInt - y.toInt))
  else if sign = "*" then some (.ofInt (x.toInt * y.toInt))
  else if sign = "/" then if y.toInt = 0 then none else some (.ofInt (x.toInt.tdiv y.toInt))
  else if sign = "%" then if y.toInt = 0 then none else some (.ofInt (x.toInt.tmod y.toInt))
  else if sign = "&" then some (x &&& y)
  else if sign = "|" then some (x ||| y)
  else if sign = "^" then some (x ^^^ y)
  else if sign = "<" then some (conditionWord (x.toInt < y.toInt))
  else if sign = ">" then some (conditionWord (x.toInt > y.toInt))
  else if sign = "<=" then some (conditionWord (x.toInt ≤ y.toInt))
  else if sign = ">=" then some (conditionWord (x.toInt ≥ y.toInt))
  else if sign = "==" then some (conditionWord (x.toInt = y.toInt))
  else if sign = "!=" then some (conditionWord (x.toInt ≠ y.toInt))
  else some 0

/-- The word of an expression, and the memory it leaves behind. -/
def Expr.onWords : Expr → Memory → Option (Int64 × Memory)
  | .const (.number (.int i)), m => some (i, m)
  | .var name, m => some (m.read name, m)
  | .binary op left right, m => do
    let (x, m) ← left.onWords m
    let (y, m) ← right.onWords m
    let w ← joinWords op x y
    return (w, m)
  | .assign _ (.var name) value, m => do
    let (w, m) ← value.onWords m
    return (w, m.write name w)
  | .call name args, m => some (0, m.call name args)
  | _, m => some (0, m)

mutual

/-- The memory that a node leaves behind. -/
def Node.onWords : Node → Memory → Option Memory
  | .program decls, m => Node.onWordsAll decls m
  | .prototype _ _ _, m => some m
  | .function _ name _ items, m => if name = "main" then Node.onWordsAll items m else some m
  | .block items, m => Node.onWordsAll items m
  | .decl _ name init, m => do
    let (w, m) ← init.onWords m
    return m.write name w
  | .ret value, m => do
    let (w, m) ← value.onWords m
    return m.leave w
  | .expr e, m => do
    let (_, m) ← e.onWords m
    return m

/-- The memory that nodes leave behind, one after the other. -/
def Node.onWordsAll : List Node → Memory → Option Memory
  | [], m => some m
  | n :: rest, m => do
    let m ← n.onWords m
    Node.onWordsAll rest m

end

/-- The memory that a program leaves behind, unless it divides by zero. -/
def Program.onWords (p : Program) : Option Memory := p.node.onWords .blank

end MiniC
