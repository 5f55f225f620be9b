import MiniC.Proofs.Token.Element

/-!
# Accounting for a source

A source is cut into the texts of its tokens and the gaps between them, and
nothing of it is left over. Every token is read from the longest text that
stands where its text starts, on the line that the line feeds before it count
to. A gap is made of texts that are passed over. What is reported are the flaws
that the grammar names, in the order of the source.
-/

namespace MiniC.Lexical

open Element

/-- What is reported about a flaw on a line. -/
def reports (line : Nat) (flaw : Option Flaw) : List Diagnostic :=
  (flaw.map fun f => Diagnostic.warning line f.message).toList

/-- A gap that starts on a line: texts that are passed over, with what follows the gap and what
is reported about it. -/
inductive Gap : Nat → List Char → List Char → List Diagnostic → Prop
  | nil {line : Nat} {rest : List Char} : Gap line [] rest []
  | cons {line : Nat} {s gap rest : List Char} {flaw : Option Flaw} {ds : List Diagnostic} :
    SkippedText s (gap ++ rest) flaw → Gap (line + s.count '\n') gap rest ds →
      Gap line (s ++ gap) rest (reports line flaw ++ ds)

/-- A token with the gap before it and its own text. -/
structure Span where
  /-- What is passed over before the token. -/
  gap : List Char
  /-- What the token is read from. -/
  text : List Char
  /-- The token. -/
  token : Token
  /-- What is reported about the gap. -/
  gapReports : List Diagnostic
  /-- What is reported about the text. -/
  textReports : List Diagnostic

/-- The part of the source that spans cover. -/
def covered (spans : List Span) : List Char := spans.flatMap fun p => p.gap ++ p.text

/-- The reports on spans, in order. -/
def spanReports (spans : List Span) : List Diagnostic :=
  spans.flatMap fun p => p.gapReports ++ p.textReports

/-- A span is read behind one part of the source and before another. -/
structure Span.Reads (p : Span) (before rest : List Char) : Prop where
  /-- The gap is passed over. -/
  gap : Gap (1 + before.count '\n') p.gap (p.text ++ rest) p.gapReports
  /-- The token is read from its text. -/
  text : ∃ flaw, TokenText p.text rest p.token flaw ∧
    p.textReports = reports (1 + (before ++ p.gap).count '\n') flaw
  /-- Something is read. -/
  text_ne_nil : p.text ≠ []
  /-- No longer text stands there. -/
  longest : Longest p.text rest
  /-- The line of the token. -/
  line : p.token.line = 1 + (before ++ p.gap).count '\n'
  /-- Only the end of the source is the end. -/
  kind_ne_eof : p.token.kind ≠ .eof
  /-- Tokens other than strings keep their text. -/
  lexeme : p.token.kind ≠ .string → p.token.lexeme = String.ofList p.text

/-- Spans and a last gap account for what follows some part of the source. -/
structure Accounts (before cs : List Char) (spans : List Span) (last : List Char)
    (lastReports : List Diagnostic) : Prop where
  /-- Nothing is left over. -/
  cover : cs = covered spans ++ last
  /-- Every span is read where it stands. -/
  reads : ∀ earlier p later, spans = earlier ++ p :: later →
    p.Reads (before ++ covered earlier) (covered later ++ last)
  /-- The last gap reaches to the end. -/
  last : Gap (1 + (before ++ covered spans).count '\n') last [] lastReports

theorem TokenText.kind_ne_eof {s rest : List Char} {t : Token} {flaw : Option Flaw}
    (h : TokenText s rest t flaw) : t.kind ≠ .eof := by
  cases h with
  | word _ _ hk => cases hk <;> simp
  | _ => simp

theorem TokenText.lexeme_eq {s rest : List Char} {t : Token} {flaw : Option Flaw}
    (h : TokenText s rest t flaw) (hk : t.kind ≠ .string) : t.lexeme = String.ofList s := by
  cases h with
  | string _ => exact absurd rfl hk
  | openString _ _ => exact absurd rfl hk
  | _ => rfl

@[simp] theorem covered_nil : covered [] = [] := rfl

@[simp] theorem covered_cons (p : Span) (spans : List Span) :
    covered (p :: spans) = p.gap ++ p.text ++ covered spans := by
  rw [covered, List.flatMap_cons]
  rfl

@[simp] theorem covered_append (spans spans' : List Span) :
    covered (spans ++ spans') = covered spans ++ covered spans' := by
  simp [covered]

@[simp] theorem spanReports_cons (p : Span) (spans : List Span) :
    spanReports (p :: spans) = p.gapReports ++ p.textReports ++ spanReports spans := by
  rw [spanReports, List.flatMap_cons]
  rfl

/-- A longer gap before a token that is read. -/
theorem Span.Reads.skip {p : Span} {before s rest : List Char} {flaw : Option Flaw}
    (hs : SkippedText s (p.gap ++ (p.text ++ rest)) flaw) (h : p.Reads (before ++ s) rest) :
    Span.Reads { p with
      gap := s ++ p.gap
      gapReports := reports (1 + before.count '\n') flaw ++ p.gapReports } before rest where
  gap := .cons hs (by simpa [Nat.add_assoc] using h.gap)
  text := by simpa using h.text
  text_ne_nil := h.text_ne_nil
  longest := h.longest
  line := by simpa using h.line
  kind_ne_eof := h.kind_ne_eof
  lexeme := h.lexeme

namespace Accounts

variable {before cs s last : List Char} {spans : List Span} {ds : List Diagnostic}
  {flaw : Option Flaw}

theorem nil (before : List Char) : Accounts before [] [] [] [] where
  cover := rfl
  reads := by simp
  last := .nil

/-- A token in front of what is accounted for. -/
theorem token {t : Token} (ht : TokenText s cs t flaw) (hne : s ≠ []) (hl : Longest s cs)
    (hline : t.line = 1 + before.count '\n') (h : Accounts (before ++ s) cs spans last ds) :
    Accounts before (s ++ cs) (⟨[], s, t, [], reports (1 + before.count '\n') flaw⟩ :: spans) last
      ds where
  cover := by simp [h.cover]
  reads := by
    intro earlier p later hsplit
    cases earlier with
    | nil =>
      cases hsplit
      rw [← h.cover, covered_nil, List.append_nil]
      exact
        { gap := .nil
          text := ⟨flaw, ht, by simp⟩
          text_ne_nil := hne
          longest := hl
          line := by simpa using hline
          kind_ne_eof := ht.kind_ne_eof
          lexeme := ht.lexeme_eq }
    | cons q earlier =>
      cases hsplit
      simpa using h.reads earlier p later rfl
  last := by simpa using h.last

/-- Something that is passed over, in front of what is accounted for. -/
theorem skip (hs : SkippedText s cs flaw) (h : Accounts (before ++ s) cs spans last ds) :
    ∃ spans' last' ds', Accounts before (s ++ cs) spans' last' ds' ∧
      spans'.map Span.token = spans.map Span.token ∧
        spanReports spans' ++ ds' =
          reports (1 + before.count '\n') flaw ++ (spanReports spans ++ ds) := by
  cases spans with
  | nil =>
    have hcs : cs = last := by simpa using h.cover
    subst hcs
    refine ⟨[], s ++ cs, reports (1 + before.count '\n') flaw ++ ds, ?_, rfl, rfl⟩
    have hgap : Gap (1 + before.count '\n' + s.count '\n') cs [] ds := by
      simpa [Nat.add_assoc] using h.last
    exact
      { cover := rfl
        reads := by simp
        last := by simpa using Gap.cons (by simpa using hs) hgap }
  | cons p spans =>
    refine ⟨{ p with
      gap := s ++ p.gap
      gapReports := reports (1 + before.count '\n') flaw ++ p.gapReports } :: spans, last, ds,
      ⟨?_, ?_, ?_⟩, rfl, by simp⟩
    · simp [h.cover]
    · intro earlier q later hsplit
      cases earlier with
      | nil =>
        cases hsplit
        have hp := h.reads [] p spans rfl
        rw [covered_nil, List.append_nil] at hp ⊢
        exact hp.skip (by simpa [h.cover] using hs)
      | cons q' earlier =>
        cases hsplit
        simpa using h.reads (p :: earlier) q later rfl
    · simpa using h.last

end Accounts

private theorem filterMap_cons_toList {α β : Type} (f : α → Option β) (a : α) (as : List α) :
    (a :: as).filterMap f = (f a).toList ++ as.filterMap f := by
  cases h : f a with
  | none => simp [h]
  | some b => simp [h]

/-- The tokens among elements that start on a line. -/
abbrev tokensFrom (line : Nat) (es : List Element) : List Token :=
  (located line es).filterMap fun (line, e) => e.token? line

/-- The reports on elements that start on a line. -/
abbrev reportsFrom (line : Nat) (es : List Element) : List Diagnostic :=
  (located line es).filterMap fun (line, e) => e.flaw?.map fun f => .warning line f.message

theorem tokensFrom_cons (line : Nat) (e : Element) (es : List Element) :
    tokensFrom line (e :: es) =
      (e.token? line).toList ++ tokensFrom (line + e.text.count '\n') es :=
  filterMap_cons_toList _ _ _

theorem reportsFrom_cons (line : Nat) (e : Element) (es : List Element) :
    reportsFrom line (e :: es) =
      reports line e.flaw? ++ reportsFrom (line + e.text.count '\n') es :=
  filterMap_cons_toList _ _ _

/-- What is read from characters, by their elements. -/
theorem lexChars_eq (cs : List Char) :
    lexChars cs =
      { tokens := tokensFrom 1 (split cs) ++ [endToken (1 + cs.count '\n' : Nat)]
        diagnostics := reportsFrom 1 (split cs) } := rfl

/-- Elements behind others start on the line that these count to. -/
theorem located_append (line : Nat) (es es' : List Element) :
    located line (es ++ es') =
      located line es ++ located (line + (es.flatMap Element.text).count '\n') es' := by
  induction es generalizing line with
  | nil => rfl
  | cons e es ih =>
    rw [List.cons_append, located, ih, located, List.flatMap_cons, List.count_append,
      Nat.add_assoc, List.cons_append]

theorem tokensFrom_append (line : Nat) (es es' : List Element) :
    tokensFrom line (es ++ es') =
      tokensFrom line es ++ tokensFrom (line + (es.flatMap Element.text).count '\n') es' := by
  rw [tokensFrom, located_append, List.filterMap_append]

theorem reportsFrom_append (line : Nat) (es es' : List Element) :
    reportsFrom line (es ++ es') =
      reportsFrom line es ++ reportsFrom (line + (es.flatMap Element.text).count '\n') es' := by
  rw [reportsFrom, located_append, List.filterMap_append]

/-- The elements of what follows some part of a source account for it. -/
theorem accounts_split (before cs : List Char) :
    ∃ spans last ds, Accounts before cs spans last ds ∧
      tokensFrom (1 + before.count '\n') (split cs) = spans.map Span.token ∧
        reportsFrom (1 + before.count '\n') (split cs) = spanReports spans ++ ds := by
  fun_induction split cs generalizing before with
  | case1 => exact ⟨[], [], [], .nil before, rfl, rfl⟩
  | case2 c rest ih =>
    obtain ⟨spans, last, ds, h, htokens, hreports⟩ := ih (before ++ (first c rest).1.text)
    have hline : 1 + (before ++ (first c rest).1.text).count '\n' =
        1 + before.count '\n' + (first c rest).1.text.count '\n' := by
      rw [List.count_append, Nat.add_assoc]
    rw [hline] at htokens hreports
    rw [tokensFrom_cons, reportsFrom_cons, htokens, hreports]
    have hcs := text_first_append c rest
    rcases readsAs_first c rest (1 + before.count '\n' : Nat) with ⟨t, ht, htl, htext⟩ | ⟨ht, hskip⟩
    · have haccount := Accounts.token htext (text_first_ne_nil c rest) (longest_first c rest)
        (by simpa using htl) h
      rw [hcs] at haccount
      exact ⟨_, last, ds, haccount, by rw [ht]; rfl, by simp⟩
    · obtain ⟨spans', last', ds', haccount, htokens', hreports'⟩ := h.skip hskip
      rw [hcs] at haccount
      exact ⟨spans', last', ds', haccount, by rw [ht, htokens']; rfl, hreports'.symm⟩

/-- Reading accounts for every character of a source. -/
theorem exists_accounts_lex (source : Text.Bytes) :
    ∃ spans last ds, Accounts [] (Text.chars source) spans last ds ∧
      (lex source).tokens =
        spans.map Span.token ++ [endToken (1 + (Text.chars source).count '\n' : Nat)] ∧
      (lex source).diagnostics = spanReports spans ++ ds := by
  obtain ⟨spans, last, ds, h, htokens, hreports⟩ := accounts_split [] (Text.chars source)
  refine ⟨spans, last, ds, h, ?_, hreports⟩
  rw [← htokens]
  rfl

end MiniC.Lexical
