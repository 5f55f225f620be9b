import MiniC.Proofs.Parse.Location
import MiniC.Proofs.Text.Line
import MiniC.Proofs.Token.Account

/-!
# Syntax errors in a source

A source that does not compile is blamed on one of its tokens: the one at which
no program can go on, or the last one if the source ends too early. The line of
the error is the line this token starts on, counted in characters, and the
snippet is this line, cut from the bytes of the source.
-/

namespace MiniC

open Lexical Text

/-- The span of the token that a syntax error is about, between the spans before and behind it:
the token at which the error stands, or the last token if it stands at the end. -/
def About (source : Bytes) (e : SyntaxError) (earlier : List Span) (p : Span)
    (later : List Span) : Prop :=
  (e.got = some p.token ∧
      Parse.ErrorAt ((earlier ++ p :: later).map Span.token) source e earlier.length) ∨
    e.got = none ∧ later = [] ∧
      Parse.ErrorAt ((earlier ++ p :: later).map Span.token) source e (earlier.length + 1)

/-- A syntax error points at what stands behind a part of its source: to the line of it, which is
a line of the source, and with a snippet that is this line without the blanks at its ends. -/
structure PointsBehind (source : Bytes) (e : SyntaxError) (before : List Char) : Prop where
  line_eq : e.line = 1 + before.count '\n'
  one_le_line : 1 ≤ e.line
  line_le : e.line ≤ (source.splitOn lineFeed).length
  snippet : ∃ raw, (source.splitOn lineFeed)[(e.line - 1).toNat]? = some raw ∧ Trimmed raw e.snippet
  snippet_ne_nil : e.snippet ≠ []

theorem snippet_eq_of_parse {ts : List Token} {source : Bytes} {e : SyntaxError}
    (h : parse ts source = .error e) : e.snippet = snippet source e.line := by
  obtain ⟨fault, -, rfl⟩ := Parse.parse_eq_error_iff.mp h
  rfl

/-- An error on the line of a character that is not blank points at it. -/
theorem pointsBehind_of_line {source : Bytes} {e : SyntaxError} {before rest : List Char} {c : Char}
    (hsource : chars source = before ++ c :: rest) (hc : isBlank c = false)
    (hline : e.line = 1 + before.count '\n') (hsnippet : e.snippet = Text.snippet source e.line) :
    PointsBehind source e before := by
  obtain ⟨ps, qs, hpieces, rfl, hqs⟩ := List.map_eq_append_iff.mp hsource
  obtain ⟨q, after, rfl, rfl, -⟩ := List.map_eq_cons_iff.mp hqs
  obtain ⟨raw, hraw, htrimmed, hne⟩ := snippet_spec hpieces hc
  have hnewlines : e.line = 1 + newlines ps := hline
  have hindex : (e.line - 1).toNat = newlines ps := by omega
  have hlt : newlines ps < (source.splitOn lineFeed).length :=
    (List.getElem?_eq_some_iff.mp hraw).1
  rw [hline] at hsnippet
  exact
    { line_eq := hline
      one_le_line := by omega
      line_le := by omega
      snippet := ⟨raw, hindex ▸ hraw, hsnippet ▸ htrimmed⟩
      snippet_ne_nil := hsnippet ▸ hne }

/-- The tokens of spans, with the end behind them, are parsed as the spans' own tokens. -/
private theorem parse_tokens {spans : List Span} {source : Bytes} {line : Int}
    (h : ∀ t ∈ spans.map Span.token, t.kind ≠ .eof) :
    parse (spans.map Span.token ++ [endToken line]) source =
      parse (spans.map Span.token) source := by
  have hbefore : beforeEnd (spans.map Span.token ++ [endToken line]) = spans.map Span.token := by
    rw [Parse.beforeEnd_append h]
    exact List.append_nil _
  rw [← parse_beforeEnd, hbefore]

/-- An error stands at one of the spans whose tokens raise it. -/
private theorem exists_about {spans : List Span} {source : Bytes} {e : SyntaxError}
    (hend : ∀ t ∈ spans.map Span.token, t.kind ≠ .eof)
    (h : parse (spans.map Span.token) source = .error e) :
    ∃ earlier p later, spans = earlier ++ p :: later ∧ About source e earlier p later ∧
      e.line = p.token.line := by
  obtain ⟨k, hk⟩ := Parse.exists_errorAt hend h
  rcases Nat.lt_or_eq_of_le hk.le_length with hlt | heq
  · rw [List.length_map] at hlt
    have hsplit : spans = spans.take k ++ spans[k] :: spans.drop (k + 1) := by
      rw [← List.drop_eq_getElem_cons hlt, List.take_append_drop]
    have hlen : (spans.take k).length = k := List.length_take_of_le (Nat.le_of_lt hlt)
    have hat : (spans.map Span.token)[k]? = some spans[k].token := by simp [hlt]
    refine ⟨_, _, _, hsplit, .inl ⟨hk.got.trans hat, ?_⟩, (hk.found _ hat).2⟩
    rwa [← hsplit, hlen]
  · obtain ⟨-, t, hlast, hline⟩ := hk.ended heq
    have hne : spans ≠ [] := by
      rintro rfl
      cases hlast
    obtain ⟨earlier, p, rfl⟩ := (List.eq_nil_or_concat spans).resolve_left hne
    rw [List.concat_eq_append] at *
    have hat : ((earlier ++ [p]).map Span.token)[k]? = none := by simp [heq]
    obtain rfl : p.token = t := by simpa using hlast
    refine ⟨earlier, p, [], rfl, .inr ⟨hk.got.trans hat, rfl, ?_⟩, hline⟩
    simpa [heq] using hk

/-- A source that does not compile is cut into spans, and the error points at the text of one of
them: of the token at which no program can go on, or of the last token if the source ends too
early. -/
theorem pointsBehind_of_compile {source : Bytes} {e : SyntaxError}
    (h : compile source = .error e) :
    ∃ earlier p later last ds,
      Accounts [] (chars source) (earlier ++ p :: later) last ds ∧
        (lex source).tokens = (earlier ++ p :: later).map Span.token ++
          [endToken (1 + (chars source).count '\n' : Nat)] ∧
        About source e earlier p later ∧
          PointsBehind source e (covered earlier ++ p.gap) := by
  obtain ⟨spans, last, ds, haccount, htokens, -⟩ := accounts_split [] (chars source)
  have htokens : (lex source).tokens =
      spans.map Span.token ++ [endToken (1 + (chars source).count '\n' : Nat)] := by
    rw [← htokens]
    rfl
  have hend : ∀ t ∈ spans.map Span.token, t.kind ≠ .eof := by
    intro t ht
    obtain ⟨p, hp, rfl⟩ := List.mem_map.mp ht
    obtain ⟨earlier, later, hsplit⟩ := List.append_of_mem hp
    exact (haccount.reads earlier p later hsplit).kind_ne_eof
  rw [compile, htokens, parse_tokens hend] at h
  obtain ⟨earlier, p, later, rfl, habout, hline⟩ := exists_about hend h
  have hreads := haccount.reads earlier p later rfl
  obtain ⟨flaw, htext, -⟩ := hreads.text
  obtain ⟨c, cs, hcs, hc⟩ := htext.starts
  refine ⟨earlier, p, later, last, ds, haccount, htokens, habout, ?_⟩
  have hsource : chars source =
      (covered earlier ++ p.gap) ++ c :: (cs ++ (covered later ++ last)) := by
    rw [haccount.cover]
    simp [hcs]
  refine pointsBehind_of_line hsource hc ?_ (snippet_eq_of_parse h)
  rw [hline, hreads.line, List.nil_append]

/-- A source that ends behind the type of a function. -/
theorem pointsBehind_of_compile_type :
    ∃ e, compile "int" = .error e ∧ ∃ earlier p later last ds,
      Accounts [] (chars "int") (earlier ++ p :: later) last ds ∧
        (lex "int").tokens = (earlier ++ p :: later).map Span.token ++
          [endToken (1 + (chars "int").count '\n' : Nat)] ∧
        About "int" e earlier p later ∧ PointsBehind "int" e (covered earlier ++ p.gap) := by
  have hsplit : Element.split ['i', 'n', 't'] = [.word ['i', 'n', 't']] := by
    have hfirst : Element.first 'i' ['n', 't'] = (.word ['i', 'n', 't'], []) := by decide
    rw [Element.split, hfirst, Element.split]
  have h : compile "int" = .error
      { expected := .kind .identifier, got := none, line := 1, snippet := snippet "int" 1 } := by
    have hchars : chars "int" = ['i', 'n', 't'] := by decide
    have htokens : beforeEnd (lex "int").tokens =
        [{ kind := .type, lexeme := "int", line := 1 }] := by
      rw [lex, hchars, lexChars, hsplit]
      decide
    rw [compile, ← parse_beforeEnd, Parse.parse_eq_error_iff, htokens]
    refine ⟨⟨.kind .identifier, []⟩, ?_, rfl⟩
    simp [Parse.functions, Parse.function, Parse.ofKind, Parse.Parsed.leaving]
  exact ⟨_, h, pointsBehind_of_compile h⟩

end MiniC
