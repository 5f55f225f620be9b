import MiniC.Proofs.Text.Piece
import MiniC.Proofs.Token.Readable

/-!
# Sources line by line

A line break is a border between what stands before it and what stands behind
it: both are read as if they stood alone, and what is read behind it only stands
further down. The one exception are comments and strings that are still open at
the line break, since they go on over it.
-/

namespace MiniC

open Text

/-- A token that stands further down by some lines. -/
def Token.lowered (lines : Nat) (t : Token) : Token := { t with line := t.line + lines }

/-- A report on something that stands further down by some lines. -/
def Diagnostic.lowered (lines : Nat) (d : Diagnostic) : Diagnostic :=
  { d with line := d.line + lines }

namespace Lexical

open Element

theorem token?_lowered (line lines : Nat) (e : Element) :
    e.token? (line + lines : Nat) = (e.token? line).map (Token.lowered lines) := by
  cases e <;> rfl

theorem reports_lowered (line lines : Nat) (flaw : Option Flaw) :
    reports (line + lines) flaw = (reports line flaw).map (Diagnostic.lowered lines) := by
  cases flaw <;> rfl

/-- Elements that start further down give the same tokens further down. -/
theorem tokensFrom_lowered (line lines : Nat) (es : List Element) :
    tokensFrom (line + lines) es = (tokensFrom line es).map (Token.lowered lines) := by
  induction es generalizing line with
  | nil => rfl
  | cons e es ih =>
    rw [tokensFrom_cons, tokensFrom_cons, List.map_append, token?_lowered, Nat.add_right_comm, ih]
    cases e.token? line with
    | none => rfl
    | some t => rfl

theorem reportsFrom_lowered (line lines : Nat) (es : List Element) :
    reportsFrom (line + lines) es = (reportsFrom line es).map (Diagnostic.lowered lines) := by
  induction es generalizing line with
  | nil => rfl
  | cons e es ih =>
    rw [reportsFrom_cons, reportsFrom_cons, List.map_append, reports_lowered, Nat.add_right_comm,
      ih]

/-- Characters before and behind a line feed are read apart from each other, unless an element is
open before it. -/
theorem lexChars_append_newline {as : List Char} (h : ∀ e ∈ split as, isOpen e = false)
    (bs : List Char) :
    lexChars (as ++ '\n' :: bs) =
      { tokens := tokensFrom 1 (split as) ++
          (lexChars bs).tokens.map (Token.lowered (1 + as.count '\n'))
        diagnostics := (lexChars as).diagnostics ++
          (lexChars bs).diagnostics.map (Diagnostic.lowered (1 + as.count '\n')) } := by
  have hsplit : split (as ++ '\n' :: bs) = split as ++ .blank '\n' :: split bs := by
    have hwhole : split as = split as ++ [] := (List.append_nil _).symm
    have hborder := split_before_blank hwhole (b := '\n') (by decide) (fun _ => h)
      (fun _ => rfl) bs
    rwa [flatMap_text_split] at hborder
  have hline : 1 + as.count '\n' + (Element.blank '\n').text.count '\n' =
      1 + (1 + as.count '\n') := by
    rw [Element.text, List.count_singleton_self]
    omega
  have htokens : tokensFrom 1 (split (as ++ '\n' :: bs)) = tokensFrom 1 (split as) ++
      (tokensFrom 1 (split bs)).map (Token.lowered (1 + as.count '\n')) := by
    rw [hsplit, tokensFrom_append, flatMap_text_split, tokensFrom_cons, hline, tokensFrom_lowered]
    rfl
  have hreports : reportsFrom 1 (split (as ++ '\n' :: bs)) = reportsFrom 1 (split as) ++
      (reportsFrom 1 (split bs)).map (Diagnostic.lowered (1 + as.count '\n')) := by
    rw [hsplit, reportsFrom_append, flatMap_text_split, reportsFrom_cons, hline,
      reportsFrom_lowered]
    rfl
  have hend : endToken (1 + (as ++ '\n' :: bs).count '\n' : Nat) =
      (endToken (1 + bs.count '\n' : Nat)).lowered (1 + as.count '\n') := by
    have hcount : 1 + (as ++ '\n' :: bs).count '\n' =
        1 + bs.count '\n' + (1 + as.count '\n') := by
      rw [List.count_append, List.count_cons_self]
      omega
    rw [hcount, endToken, Token.lowered, endToken, Int.natCast_add]
  rw [lexChars_eq, htokens, hreports, hend, lexChars_eq, lexChars_eq, List.map_append,
    List.append_assoc, List.map_singleton]

/-- What is open in a source is reported. -/
theorem exists_report_of_isOpen (line : Nat) {es : List Element} {e : Element} (he : e ∈ es)
    (h : isOpen e = true) :
    ∃ d ∈ reportsFrom line es, d.message = "unterminated block comment" ∨
      d.message = "unterminated string literal" := by
  induction es generalizing line with
  | nil => cases he
  | cons e' es ih =>
    rw [reportsFrom_cons]
    rcases List.mem_cons.mp he with rfl | he
    · cases e with
      | comment body closed =>
        cases closed with
        | true => cases h
        | false => exact ⟨_, List.mem_append_left _ List.mem_cons_self, .inl rfl⟩
      | quotation body closed =>
        cases closed with
        | true => cases h
        | false => exact ⟨_, List.mem_append_left _ List.mem_cons_self, .inr rfl⟩
      | _ => cases h
    · obtain ⟨d, hd, hmessage⟩ := ih _ he
      exact ⟨d, List.mem_append_right _ hd, hmessage⟩

/-- The tokens of a source before its end are those of its elements. -/
theorem filter_tokens_lexChars (cs : List Char) :
    (lexChars cs).tokens.filter (·.kind != .eof) = tokensFrom 1 (split cs) := by
  have hkept : ∀ t ∈ tokensFrom 1 (split cs), (t.kind != .eof) = true := by
    intro t ht
    simpa using kind_of_mem_tokensFrom ht
  rw [lexChars_eq, List.filter_append, List.filter_eq_self.mpr hkept]
  exact List.append_nil _

end Lexical

/-- Reading is compositional at line breaks: behind a text that leaves neither a comment nor a
string open, what follows a line feed is read as if it stood alone, further down by the lines
before it. -/
theorem lex_append_lineFeed {as : Bytes}
    (h : ∀ d ∈ (lex as).diagnostics, d.message ≠ "unterminated block comment" ∧
      d.message ≠ "unterminated string literal") (bs : Bytes) :
    (lex (as ++ lineFeed :: bs)).tokens =
        (lex as).tokens.filter (·.kind != .eof) ++
          (lex bs).tokens.map (Token.lowered (1 + as.count lineFeed)) ∧
      (lex (as ++ lineFeed :: bs)).diagnostics =
        (lex as).diagnostics ++
          (lex bs).diagnostics.map (Diagnostic.lowered (1 + as.count lineFeed)) := by
  have hclosed : ∀ e ∈ Element.split (chars as), Lexical.isOpen e = false := by
    intro e he
    rw [Bool.eq_false_iff]
    intro hopen
    obtain ⟨d, hd, hmessage⟩ := Lexical.exists_report_of_isOpen 1 he hopen
    rcases hmessage with hmessage | hmessage
    · exact (h d hd).1 hmessage
    · exact (h d hd).2 hmessage
  have hlex : lex (as ++ lineFeed :: bs) = lexChars (chars as ++ '\n' :: chars bs) := by
    rw [lex, chars_append_lineFeed]
  rw [hlex, Lexical.lexChars_append_newline hclosed, count_newline_chars]
  exact ⟨by rw [lex, lex, Lexical.filter_tokens_lexChars], rfl⟩

/-- A text that ends in a point and the start of a character, and one that goes on with this
character: the line feed keeps the number, the point and the bytes apart. -/
theorem lex_append_lineFeed_truncated :
    let as : Bytes := [0x37, 0x2E, 0xC3]
    let bs : Bytes := [0xA9]
    (∀ d ∈ (lex as).diagnostics, d.message ≠ "unterminated block comment" ∧
        d.message ≠ "unterminated string literal") ∧
      (lex (as ++ lineFeed :: bs)).tokens =
        [{ kind := .number, lexeme := "7", line := 1, value := .int 7 }, endToken 2] ∧
      (lex (as ++ lineFeed :: bs)).diagnostics.map Diagnostic.line = [1, 1, 2] := by
  intro as bs
  have hchars : chars as = ['7', '.', '\uFFFD'] := by decide
  have hchars' : chars bs = ['\uFFFD'] := by decide
  have hstray : Element.first '\uFFFD' [] = (.unknown '\uFFFD', []) := by decide +kernel
  have hsplit : Element.split (chars as) =
      [.number ['7'] none, .unknown '.', .unknown '\uFFFD'] := by
    have hnumber : Element.first '7' ['.', '\uFFFD'] = (.number ['7'] none, ['.', '\uFFFD']) := by
      decide
    have hpoint : Element.first '.' ['\uFFFD'] = (.unknown '.', ['\uFFFD']) := by decide
    rw [hchars, Element.split, hnumber, Element.split, hpoint, Element.split, hstray,
      Element.split]
  have hsplit' : Element.split (chars bs) = [.unknown '\uFFFD'] := by
    rw [hchars', Element.split, hstray, Element.split]
  have hclosed : ∀ d ∈ (lex as).diagnostics, d.message ≠ "unterminated block comment" ∧
      d.message ≠ "unterminated string literal" := by
    rw [lex, lexChars, hsplit]
    decide +kernel
  obtain ⟨htokens, hreports⟩ := lex_append_lineFeed hclosed bs
  refine ⟨hclosed, ?_, ?_⟩
  · rw [htokens, lex, lex, lexChars, lexChars, hsplit, hsplit', hchars, hchars']
    decide
  · rw [hreports, lex, lex, lexChars, lexChars, hsplit, hsplit']
    decide +kernel

end MiniC
