import Mathlib.Data.List.Forall2
import MiniC.Compile
import MiniC.Proofs.Parse.Blind
import MiniC.Run.Eval

/-!
# Layout

No parser looks at the line of a token. Taking the lines out of the tokens
before parsing gives the same as taking them out of what parsing left, so token
lists that differ only in their lines are parsed alike: to the same program, or
to errors with the same wanted and found tokens. What a program does when it is
run can then not depend on how its source was laid out.
-/

namespace MiniC

namespace Token

/-- A token taken from its line. -/
def unplaced (t : Token) : Token := { t with line := 0 }

theorem alike_iff {t u : Token} : t.Alike u ↔ t.unplaced = u.unplaced := by
  constructor
  · rintro ⟨hkind, hlexeme, hvalue⟩
    rw [unplaced, unplaced, hkind, hlexeme, hvalue]
  · intro h
    have hkind := congrArg Token.kind h
    have hlexeme := congrArg Token.lexeme h
    have hvalue := congrArg Token.value h
    exact ⟨hkind, hlexeme, hvalue⟩

/-- Lists of tokens that agree but for the lines are the same without them. -/
theorem forall₂_alike_iff {ts us : List Token} :
    List.Forall₂ Alike ts us ↔ ts.map unplaced = us.map unplaced := by
  have hrelation : Alike = fun t u => t.unplaced = u.unplaced :=
    funext fun t => funext fun u => propext alike_iff
  rw [hrelation, ← List.forall₂_eq_eq_eq, List.forall₂_map_left_iff, List.forall₂_map_right_iff]

end Token

namespace Parse

/-- No parser sees that tokens are taken from their lines. -/
theorem unseen_unplaced : Unseen (List.map Token.unplaced) where
  nil := atEnd_nil
  cons t _ := ⟨t.unplaced, Token.alike_iff.mpr rfl, rfl⟩

/-- Functions are read alike without the lines of their tokens. -/
theorem functions_unplaced (ts : List Token) :
    functions (ts.map Token.unplaced) =
      (functions ts).mapError (Fault.changed (List.map Token.unplaced)) :=
  functions_changed unseen_unplaced ts

end Parse

/-! ## Programs and their runs -/

/-- Two syntax errors that differ at most in where they stand. -/
structure SyntaxError.Alike (e e' : SyntaxError) : Prop where
  expected : e.expected = e'.expected
  got : e.gotText = e'.gotText

/-- Two verdicts on tokens that agree: the same program, or errors that are alike. -/
inductive SameVerdict : Except SyntaxError Program → Except SyntaxError Program → Prop
  | accepted (p : Program) : SameVerdict (.ok p) (.ok p)
  | rejected {e e' : SyntaxError} : e.Alike e' → SameVerdict (.error e) (.error e')

theorem SyntaxError.gotText_ofFault (ts : List Token) (source : Text.Bytes) (fault : Parse.Fault) :
    (SyntaxError.ofFault ts source fault).gotText =
      ((fault.rest.map Token.unplaced).head?.map Token.describe).getD "end of file" := by
  rw [SyntaxError.gotText, SyntaxError.ofFault]
  cases fault.rest with
  | nil => rfl
  | cons t rest =>
    by_cases ht : t.kind = .eof
    · have hgot : (some t).filter (·.kind != .eof) = none := by simp [ht]
      simp [hgot, ht, Token.describe, Token.unplaced]
    · have hgot : (some t).filter (·.kind != .eof) = some t := by simp [ht]
      simp [hgot, ht, Token.describe, Token.unplaced]

/-- Tokens that agree but for their lines get the same verdict, whatever sources they are from. -/
theorem sameVerdict_parse {ts us : List Token} (h : List.Forall₂ Token.Alike ts us)
    (source source' : Text.Bytes) : SameVerdict (parse ts source) (parse us source') := by
  have hfunctions : (Parse.functions ts).mapError (Parse.Fault.changed (List.map Token.unplaced)) =
      (Parse.functions us).mapError (Parse.Fault.changed (List.map Token.unplaced)) := by
    rw [← Parse.functions_unplaced, ← Parse.functions_unplaced, Token.forall₂_alike_iff.mp h]
  rw [parse, parse]
  cases ht : Parse.functions ts with
  | ok decls =>
    cases hu : Parse.functions us with
    | ok decls' =>
      rw [ht, hu] at hfunctions
      cases hfunctions
      exact .accepted ⟨decls⟩
    | error fault' =>
      rw [ht, hu] at hfunctions
      cases hfunctions
  | error fault =>
    cases hu : Parse.functions us with
    | ok decls' =>
      rw [ht, hu] at hfunctions
      cases hfunctions
    | error fault' =>
      rw [ht, hu] at hfunctions
      have hfault := Except.error.inj hfunctions
      have hrest : fault.rest.map Token.unplaced = fault'.rest.map Token.unplaced :=
        congrArg Parse.Fault.rest hfault
      have hexpected : fault.expected = fault'.expected := by
        simpa only [Parse.Fault.changed] using congrArg Parse.Fault.expected hfault
      refine .rejected ⟨hexpected, ?_⟩
      rw [SyntaxError.gotText_ofFault, SyntaxError.gotText_ofFault, hrest]

/-- What compiling a source and running its program comes to. -/
inductive Ending where
  /-- The source is no program. -/
  | rejected (e : SyntaxError)
  /-- The run of the program fails in a state. -/
  | failed (p : Program) (s : State) (f : Failure)
  /-- The run of the program comes to its end in a state. -/
  | finished (p : Program) (s : State)

/-- Run the program that a verdict accepts. -/
def Ending.ofVerdict : Except SyntaxError Program → Ending
  | .error e => .rejected e
  | .ok p =>
    match p.run.failure with
    | some f => .failed p p.run.state f
    | none => .finished p p.run.state

/-- Compile a source and run its program. -/
def ending (source : Text.Bytes) : Ending := .ofVerdict (compile source)

/-- Two endings that agree: errors that are alike, or the same run of the same program. -/
inductive SameEnding : Ending → Ending → Prop
  | rejected {e e' : SyntaxError} : e.Alike e' → SameEnding (.rejected e) (.rejected e')
  | failed (p : Program) (s : State) (f : Failure) : SameEnding (.failed p s f) (.failed p s f)
  | finished (p : Program) (s : State) : SameEnding (.finished p s) (.finished p s)

/-- The run of a program is the same whatever tokens the program was read from. -/
theorem SameVerdict.sameEnding {v v' : Except SyntaxError Program} (h : SameVerdict v v') :
    SameEnding (.ofVerdict v) (.ofVerdict v') := by
  cases h with
  | rejected he => exact .rejected he
  | accepted p =>
    rw [Ending.ofVerdict]
    cases p.run.failure with
    | none => exact .finished p p.run.state
    | some f => exact .failed p p.run.state f

/-- Layout does not matter: tokens that agree but for their lines get the same verdict, and sources
with such tokens come to the same ending. -/
theorem sameEnding_of_alike :
    (∀ ts us source source', List.Forall₂ Token.Alike ts us →
      SameVerdict (parse ts source) (parse us source')) ∧
      ∀ source source', List.Forall₂ Token.Alike (lex source).tokens (lex source').tokens →
        SameVerdict (compile source) (compile source') ∧
          SameEnding (ending source) (ending source') := by
  refine ⟨fun ts us source source' h => sameVerdict_parse h source source', ?_⟩
  intro source source' h
  have hverdict : SameVerdict (compile source) (compile source') :=
    sameVerdict_parse h source source'
  exact ⟨hverdict, hverdict.sameEnding⟩

/-- A type alone, on the first line of one source and on the second of another: the tokens and the
sources are rejected alike. -/
theorem sameEnding_of_alike_moved :
    let first : Token := { kind := .type, lexeme := "int", line := 1 }
    let second : Token := { first with line := 2 }
    (List.Forall₂ Token.Alike [first] [second] ∧
        SameVerdict (parse [first] "int") (parse [second] "\nint")) ∧
      List.Forall₂ Token.Alike (lex "int").tokens (lex "\nint").tokens ∧
        SameEnding (ending "int") (ending "\nint") := by
  intro first second
  have hword : Element.split ['i', 'n', 't'] = [.word ['i', 'n', 't']] := by
    have hfirst : Element.first 'i' ['n', 't'] = (.word ['i', 'n', 't'], []) := by decide
    rw [Element.split, hfirst, Element.split]
  have hmoved : Element.split ['\n', 'i', 'n', 't'] = [.blank '\n', .word ['i', 'n', 't']] := by
    have hfirst : Element.first '\n' ['i', 'n', 't'] = (.blank '\n', ['i', 'n', 't']) := by decide
    rw [Element.split, hfirst, hword]
  have htokens : (lex "int").tokens = [first, endToken 1] := by
    have hchars : Text.chars "int" = ['i', 'n', 't'] := by decide
    rw [lex, hchars, lexChars, hword]
    decide
  have htokens' : (lex "\nint").tokens = [second, endToken 2] := by
    have hchars : Text.chars "\nint" = ['\n', 'i', 'n', 't'] := by decide
    rw [lex, hchars, lexChars, hmoved]
    decide
  have halike : first.Alike second := ⟨rfl, rfl, rfl⟩
  have hlexed : List.Forall₂ Token.Alike (lex "int").tokens (lex "\nint").tokens := by
    rw [htokens, htokens']
    exact .cons halike (.cons ⟨rfl, rfl, rfl⟩ .nil)
  have hsingle : List.Forall₂ Token.Alike [first] [second] := .cons halike .nil
  exact ⟨⟨hsingle, sameEnding_of_alike.1 _ _ _ _ hsingle⟩, hlexed,
    (sameEnding_of_alike.2 _ _ hlexed).2⟩

end MiniC
