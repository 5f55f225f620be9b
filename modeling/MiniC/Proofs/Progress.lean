import MiniC.Proofs.Parse.Depth
import MiniC.Proofs.Token.Progress

/-!
# Reading and parsing come to an end

Nothing that is read or parsed stands still: the next token is looked for
behind the position, and a parser that succeeds took a token. So the loops and
calls of both, cut off once there were more of them than the input can account
for, give what they give when nothing is cut off. No limit on the nesting of a
program is needed for this.
-/

namespace MiniC

/-- Build the program of a token stream with calls that go at most to the given depth. -/
def parseWithin (depth : Nat) (tokens : List Token) (source : Text.Bytes) :
    Option (Except SyntaxError Program) :=
  (Parse.Routine.within depth .functions tokens).map fun outcome =>
    match outcome with
    | .ok (decls, _) => .ok ⟨decls⟩
    | .error fault => .error (.ofFault tokens source fault)

theorem parseWithin_eq_some {depth : Nat} {tokens : List Token} (source : Text.Bytes)
    (h : 6 * tokens.length + 6 ≤ depth) :
    parseWithin depth tokens source = some (parse tokens source) := by
  have hmeasure : Parse.Routine.functions.measure tokens < depth := Nat.lt_of_lt_of_le
    (Nat.add_lt_add_left Parse.Routine.functions.height_lt _) h
  rw [parseWithin, Parse.Routine.within_eq_some hmeasure, Option.map_some, parse,
    Parse.Routine.read, Parse.allFunctions]
  cases Parse.functions tokens with
  | error fault => rfl
  | ok decls => rfl

/-- How reading a source and parsing some tokens move forward and end. -/
structure Progresses (source : Text.Bytes) (tokens : List Token) : Prop where
  /-- Every call for the next token comes back and moves forward. -/
  nextToken (line pos : Nat) : pos ≤ (Text.chars source).length →
    ∃ s : Lexical.Scan, (∀ passes, (Text.chars source).length - pos < passes →
      Lexical.nextToken passes line ((Text.chars source).drop pos) = some s) ∧
        ∃ pos', s.Advances (Text.chars source) pos pos'
  /-- Reading ends after as many calls as there are characters, and one more. -/
  lex (calls : Nat) : (Text.chars source).length < calls →
    Lexical.tokensWithin calls 1 (Text.chars source) = some (lex source)
  /-- Every parser moves forward when it succeeds and not back when it fails. -/
  parsers (pos : Nat) : pos ≤ tokens.length → Parse.AllAdvance tokens pos
  /-- Every routine of the parser ends at a depth that the number of tokens bounds. -/
  routines {α : Type} (r : Parse.Routine α) (depth : Nat) : 6 * tokens.length + 6 ≤ depth →
    r.within depth tokens = some (r.read tokens)
  /-- Parsing ends at such a depth. -/
  parse (depth : Nat) : 6 * tokens.length + 6 ≤ depth →
    parseWithin depth tokens source = some (parse tokens source)

/-- Reading and parsing make progress and end, on every source and on every list of tokens. -/
theorem reading_progresses (source : Text.Bytes) (tokens : List Token) :
    Progresses source tokens where
  nextToken line _ hpos := Lexical.nextToken_advances line hpos
  lex _ hcalls := Lexical.tokensWithin_eq_some hcalls
  parsers _ hpos := Parse.allAdvance hpos
  routines r _ hdepth :=
    Parse.Routine.within_eq_some (Nat.lt_of_lt_of_le (Nat.add_lt_add_left r.height_lt _) hdepth)
  parse _ hdepth := parseWithin_eq_some source hdepth

end MiniC
