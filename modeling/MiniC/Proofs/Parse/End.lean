import MiniC.Compile
import MiniC.Proofs.Parse.Blind

/-!
# The end of the input

The tokens of a source are followed by an end token, and other token lists may
hold none, or several, or further tokens behind one. Whichever it is, only what
stands before the first end token counts: the parsers do not tell this token
from the end of the list, none reads on behind it, and an error there is placed
by the tokens before it.
-/

namespace MiniC

/-- The tokens before the first end token. -/
def beforeEnd (tokens : List Token) : List Token :=
  tokens.takeWhile (·.kind != .eof)

namespace Parse

variable {ts : List Token}

theorem beforeEnd_append {us : List Token} (h : ∀ t ∈ us, t.kind ≠ .eof) (vs : List Token) :
    beforeEnd (us ++ vs) = us ++ beforeEnd vs := by
  exact List.takeWhile_append_of_pos (by simpa using h)

theorem kind_of_mem_beforeEnd {t : Token} (h : t ∈ beforeEnd ts) : t.kind ≠ .eof := by
  simpa using List.all_eq_true.mp List.all_takeWhile t h

/-- Tokens have no end token, or there is a first one. -/
theorem beforeEnd_eq_or (ts : List Token) :
    beforeEnd ts = ts ∨ ∃ e rest, e.kind = .eof ∧ ts = beforeEnd ts ++ e :: rest := by
  have hsplit : ts = beforeEnd ts ++ ts.dropWhile (·.kind != .eof) :=
    (List.takeWhile_append_dropWhile).symm
  cases hrest : ts.dropWhile (·.kind != .eof) with
  | nil =>
    rw [hrest, List.append_nil] at hsplit
    exact .inl hsplit.symm
  | cons e rest =>
    have he := List.head?_dropWhile_not (·.kind != .eof) ts
    rw [hrest] at hsplit he
    exact .inr ⟨e, rest, by simpa using he, hsplit⟩

/-- An end token behind other tokens goes unseen, whatever stands behind it. -/
theorem unseen_append {e : Token} (he : e.kind = .eof) (rest : List Token) :
    Unseen (· ++ e :: rest) where
  nil := atEnd_cons.mpr he
  cons t _ := ⟨t, .refl t, rfl⟩

/-- Functions are read from the tokens before the first end token. -/
theorem functions_eq_ok_beforeEnd {fs : List Node} :
    functions ts = .ok fs ↔ functions (beforeEnd ts) = .ok fs := by
  rcases beforeEnd_eq_or ts with h | ⟨e, rest, he, h⟩
  · rw [h]
  · have hchanged := functions_changed (unseen_append he rest) (beforeEnd ts)
    rw [← h] at hchanged
    rw [hchanged]
    cases functions (beforeEnd ts) with
    | ok fs' => exact Iff.rfl
    | error fault => exact ⟨nofun, nofun⟩

end Parse

namespace SyntaxError

variable {ts : List Token}

/-- Behind tokens without an end token an error is on the line of the last of them. -/
theorem endLine_of_getLast? {last : Token} (hts : ∀ t ∈ ts, t.kind ≠ .eof)
    (hlast : ts.getLast? = some last) (tail : List Token) :
    endLine (ts ++ tail) tail = last.line := by
  have hread : (ts ++ tail).take ((ts ++ tail).length - tail.length) = ts := by
    rw [List.length_append, Nat.add_sub_cancel, List.take_left]
  have hfind : ts.reverse.find? (·.kind != .eof) = some last := by
    rw [← List.head?_filter, List.filter_eq_self.mpr (by simpa using hts), List.head?_reverse,
      hlast]
  rw [endLine, hread, hfind]

/-- The line of an error is the same with and without an end token behind the tokens. -/
theorem endLine_append (hts : ∀ t ∈ ts, t.kind ≠ .eof) (hne : ts ≠ []) (us tail : List Token) :
    endLine (ts ++ tail) (us ++ tail) = endLine ts us := by
  cases us with
  | nil =>
    have hlast := List.getLast?_eq_some_getLast hne
    have hwithout := endLine_of_getLast? hts hlast []
    rw [List.append_nil] at hwithout
    rw [List.nil_append, endLine_of_getLast? hts hlast, hwithout]
  | cons t us =>
    have hlength : (ts ++ tail).length - (t :: us ++ tail).length =
        ts.length - (t :: us).length := by
      rw [List.length_append, List.length_append]
      omega
    rw [endLine, hlength, List.take_append_of_le_length (Nat.sub_le _ _)]
    rfl

/-- A fault is reported the same with and without an end token behind the tokens. -/
theorem ofFault_append (hts : ∀ t ∈ ts, t.kind ≠ .eof) (hne : ts ≠ []) {e : Token}
    (he : e.kind = .eof) (rest : List Token) (source : Text.Bytes) (fault : Parse.Fault) :
    ofFault (ts ++ e :: rest) source (fault.changed (· ++ e :: rest)) =
      ofFault ts source fault := by
  have hgot : (fault.rest ++ e :: rest).head?.filter (·.kind != .eof) =
      fault.rest.head?.filter (·.kind != .eof) := by
    cases fault.rest with
    | nil => simp [he]
    | cons t us => rfl
  simp only [ofFault, Parse.Fault.changed, hgot, endLine_append hts hne]

end SyntaxError

/-- Parsing stops before the first end token. -/
theorem parse_beforeEnd (tokens : List Token) (source : Text.Bytes) :
    parse (beforeEnd tokens) source = parse tokens source := by
  rcases Parse.beforeEnd_eq_or tokens with h | ⟨e, rest, he, h⟩
  · rw [h]
  · have hchanged := Parse.functions_changed (Parse.unseen_append he rest) (beforeEnd tokens)
    rw [← h] at hchanged
    rw [parse, parse, hchanged]
    cases hfunctions : Parse.functions (beforeEnd tokens) with
    | ok fs => rfl
    | error fault =>
      have hne : beforeEnd tokens ≠ [] := by
        intro hnil
        rw [hnil, Parse.functions_of_atEnd Parse.atEnd_nil] at hfunctions
        cases hfunctions
      have hsame := SyntaxError.ofFault_append (fun t => Parse.kind_of_mem_beforeEnd) hne he rest
        source fault
      rw [← h] at hsame
      exact congrArg Except.error hsame.symm

/-- Tokens are parsed alike with and without an end token behind them, whatever this token is like
and whatever stands behind it: to the same program, or to the same error. -/
theorem parse_append_end {ts : List Token} {e : Token} (hts : ∀ t ∈ ts, t.kind ≠ .eof)
    (he : e.kind = .eof) (rest : List Token) (source : Text.Bytes) :
    parse (ts ++ e :: rest) source = parse ts source := by
  have hbefore : beforeEnd (ts ++ e :: rest) = ts := by
    rw [Parse.beforeEnd_append hts]
    simp [beforeEnd, he]
  rw [← parse_beforeEnd, hbefore]

/-- Behind a type an end token with the text of a bracket, on a line of its own, and then a name:
the name is still missing, on the line of the type. -/
theorem parse_append_end_type :
    let type : Token := { kind := .type, lexeme := "int", line := 2 }
    let ending : Token := { kind := .eof, lexeme := "(", line := 9 }
    let name : Token := { kind := .identifier, lexeme := "f", line := 1 }
    (∀ t ∈ [type], t.kind ≠ .eof) ∧ ending.kind = .eof ∧
      parse ([type] ++ ending :: [name]) "\n int" = parse [type] "\n int" ∧
        parse [type] "\n int" = .error
          { expected := .kind .identifier, got := none, line := 2, snippet := "int" } := by
  intro type ending name
  have htype : ∀ t ∈ [type], t.kind ≠ .eof := by simp [type]
  refine ⟨htype, rfl, parse_append_end htype rfl [name] "\n int", ?_⟩
  have hfault : Parse.functions [type] = .error ⟨.kind .identifier, []⟩ := by
    simp [Parse.functions, Parse.function, Parse.ofKind, Parse.Parsed.leaving, type]
  have herror : SyntaxError.ofFault [type] "\n int" ⟨.kind .identifier, []⟩ =
      { expected := .kind .identifier, got := none, line := 2, snippet := "int" } := by decide
  rw [parse, hfault]
  exact congrArg Except.error herror

end MiniC
