import MiniC.Proofs.Text.Piece
import MiniC.Proofs.Token.Account
import MiniC.Proofs.Token.Border
import MiniC.Text.Column

/-!
# Skipped characters

A character that starts nothing of the language is skipped and reported. It
parts what stands before it from what stands behind it just as a space does: a
space in its place gives the same tokens on the same lines, and only the one
report is missing.
-/

namespace MiniC

open Text

/-- A text with the character at a position replaced by a space. -/
def Text.spaced (i : Nat) (bs : Bytes) : Bytes :=
  ((pieces bs).set i (.char ' ' [space])).flatMap Piece.bytes

/-- A space in the place of a piece changes no other piece. -/
theorem Text.pieces_spaced (i : Nat) (bs : Bytes) :
    pieces (spaced i bs) = (pieces bs).set i (.char ' ' [space]) := by
  rw [spaced]
  by_cases hi : i < (pieces bs).length
  · have hsplit : pieces bs =
        (pieces bs).take i ++ (pieces bs)[i] :: (pieces bs).drop (i + 1) := by
      rw [← List.drop_eq_getElem_cons hi, List.take_append_drop]
    have hbehind : pieces (((pieces bs).drop (i + 1)).flatMap Piece.bytes) =
        (pieces bs).drop (i + 1) :=
      pieces_append_right (hsplit.trans (List.append_cons _ _ _))
    have hspace : one? space = some ' ' := rfl
    rw [List.set_eq_take_cons_drop _ hi, List.flatMap_append, List.flatMap_cons, Piece.bytes,
      List.singleton_append, pieces_append_of_not_tail (by decide), pieces_append_left hsplit,
      pieces_one _ hspace, hbehind]
  · rw [List.set_eq_of_length_le (Nat.le_of_not_lt hi), flatMap_bytes_pieces]

theorem Text.chars_spaced (i : Nat) (bs : Bytes) : chars (spaced i bs) = (chars bs).set i ' ' := by
  rw [chars, pieces_spaced, List.map_set]
  rfl

namespace Lexical

open Element

/-- Reading a source reports a flaw of what stands at a position in its characters. -/
def ReportsAt (source : Bytes) (i : Nat) (flaw : Flaw) : Prop :=
  ∃ es e es', split (chars source) = es ++ e :: es' ∧ (es.flatMap Element.text).length = i ∧
    e.flaw? = some flaw

/-- A report is on a flaw of one of the elements, and on the line this element starts on. -/
theorem exists_of_mem_reportsFrom {line : Nat} {es : List Element} {d : Diagnostic}
    (h : d ∈ reportsFrom line es) :
    ∃ before e after flaw, es = before ++ e :: after ∧ e.flaw? = some flaw ∧
      d = .warning (line + (before.flatMap Element.text).count '\n' : Nat) flaw.message := by
  induction es generalizing line with
  | nil => cases h
  | cons e es ih =>
    rw [reportsFrom_cons] at h
    rcases List.mem_append.mp h with h | h
    · cases hflaw : e.flaw? with
      | none =>
        rw [hflaw] at h
        cases h
      | some flaw =>
        rw [hflaw] at h
        exact ⟨[], e, es, flaw, rfl, hflaw, List.mem_singleton.mp h⟩
    · obtain ⟨before, e', after, flaw, rfl, hflaw, rfl⟩ := ih h
      refine ⟨e :: before, e', after, flaw, rfl, hflaw, ?_⟩
      rw [List.flatMap_cons, List.count_append, Nat.add_assoc]

/-- The text of a report tells whether it is on a skipped character. -/
theorem exists_eq_unexpected {flaw : Flaw}
    (h : ("unexpected character " : Bytes) <+: (flaw.message : Bytes)) :
    ∃ c, flaw = .unexpected c := by
  cases flaw with
  | unexpected c => exact ⟨c, rfl⟩
  | openComment => exact absurd h (by decide)
  | openString => exact absurd h (by decide)
  | integerOutOfRange digits =>
    obtain ⟨rest, h⟩ := h
    dsimp only [Flaw.message] at h
    rw [encode_append, encode_append, List.append_assoc] at h
    have hfirst : some 'u'.toUInt8 = some 'i'.toUInt8 := congrArg List.head? h
    exact absurd hfirst (by decide)

/-- Every report is on what stands at a position. -/
theorem exists_reportsAt {source : Bytes} {d : Diagnostic} (h : d ∈ (lex source).diagnostics) :
    ∃ i flaw, ReportsAt source i flaw ∧
      d = .warning (1 + ((chars source).take i).count '\n' : Nat) flaw.message := by
  obtain ⟨before, e, after, flaw, hsplit, hflaw, rfl⟩ := exists_of_mem_reportsFrom h
  refine ⟨_, flaw, ⟨before, e, after, hsplit, rfl, hflaw⟩, ?_⟩
  have hchars := flatMap_text_split (chars source)
  rw [hsplit, List.flatMap_append] at hchars
  rw [← hchars, List.take_left]

/-- Only a character that starts nothing is reported as unexpected. -/
theorem eq_unknown_of_flaw? {e : Element} {c : Char} (h : e.flaw? = some (.unexpected c)) :
    e = .unknown c := by
  fun_cases Element.flaw? e with
  | case5 d => simpa [Element.flaw?] using h
  | _ => simp_all [Element.flaw?]

/-- The elements of a source behind some of them are those of the texts that follow. -/
theorem split_append_right {cs : List Char} {es es' : List Element} (h : split cs = es ++ es') :
    split (es'.flatMap Element.text) = es' := by
  induction es generalizing cs with
  | nil =>
    rw [List.nil_append] at h
    rw [← h, flatMap_text_split]
  | cons e es ih => exact ih (ends_of_split (h.trans List.cons_append)).2

/-- A skipped character is one that starts nothing of the language. -/
theorem unknown_of_split {cs : List Char} {es es' : List Element} {c : Char}
    (h : split cs = es ++ .unknown c :: es') : Unknown c := by
  obtain ⟨hends, -⟩ := ends_of_split (split_append_right h)
  cases hends with
  | unknown hc => exact hc

/-- A space in the place of a skipped character is an element in its place. -/
theorem split_space {cs : List Char} {es es' : List Element} {c : Char}
    (h : split cs = es ++ .unknown c :: es') :
    split (es.flatMap Element.text ++ ' ' :: es'.flatMap Element.text) =
      es ++ .blank ' ' :: es' := by
  have hline : Stops (· != '\n') ((Element.unknown c :: es').flatMap Element.text) →
      ' ' = '\n' := by
    intro hstop
    have hc : c = '\n' := by simpa using hstop c rfl
    have hblank := (unknown_of_split h).not_blank
    rw [hc] at hblank
    exact absurd hblank (by decide)
  have hbehind : split (es'.flatMap Element.text) = es' :=
    split_append_right (h.trans (List.append_cons _ _ _))
  rw [split_before_blank h (by decide) nofun hline, hbehind]

/-- Characters with a space in the place of a skipped one give the same tokens, and all reports but
the one on the character. -/
theorem lexChars_space {cs : List Char} {es es' : List Element} {c : Char}
    (h : split cs = es ++ .unknown c :: es') :
    let before := reportsFrom 1 es
    let line := 1 + (es.flatMap Element.text).count '\n'
    let after := reportsFrom line es'
    (lexChars cs).diagnostics = before ++ .warning line (Flaw.unexpected c).message :: after ∧
      lexChars (es.flatMap Element.text ++ ' ' :: es'.flatMap Element.text) =
        { tokens := (lexChars cs).tokens, diagnostics := before ++ after } := by
  intro before line after
  have hc : c ≠ '\n' := by
    rintro rfl
    exact absurd (unknown_of_split h).not_blank (by decide)
  have hbreaks : (Element.unknown c).text.count '\n' = 0 := by simp [Element.text, hc]
  have hcs : cs = es.flatMap Element.text ++ c :: es'.flatMap Element.text := by
    rw [← flatMap_text_split cs, h, List.flatMap_append, List.flatMap_cons]
    rfl
  have hcount : (es.flatMap Element.text ++ ' ' :: es'.flatMap Element.text).count '\n' =
      cs.count '\n' := by
    rw [hcs]
    simp [hc]
  constructor
  · rw [lexChars_eq, h, reportsFrom_append, reportsFrom_cons, hbreaks]
    rfl
  · rw [lexChars_eq, split_space h, hcount, lexChars_eq, h, tokensFrom_append, tokensFrom_append,
      tokensFrom_cons, tokensFrom_cons, hbreaks, reportsFrom_append, reportsFrom_cons]
    rfl

end Lexical

/-- A skipped character acts exactly like a space. Every report on one stands at a position, and
with a space in the place of the character there the tokens are the same and only this report is
missing. -/
theorem lex_spaced (source : Bytes) :
    (∀ d ∈ (lex source).diagnostics, ("unexpected character " : Bytes) <+: d.message →
      ∃ i c, Lexical.ReportsAt source i (.unexpected c) ∧
        d = .warning (1 + ((chars source).take i).count '\n' : Nat)
          ("unexpected character " ++ quotedChar c ++ " skipped" : String)) ∧
      ∀ i c, Lexical.ReportsAt source i (.unexpected c) →
        (chars source)[i]? = some c ∧ chars (spaced i source) = (chars source).set i ' ' ∧
          (lex (spaced i source)).tokens = (lex source).tokens ∧
          ∃ before after,
            (lex source).diagnostics =
              before ++ .warning (1 + ((chars source).take i).count '\n' : Nat)
                ("unexpected character " ++ quotedChar c ++ " skipped" : String) :: after ∧
            (lex (spaced i source)).diagnostics = before ++ after := by
  constructor
  · intro d hd hmessage
    obtain ⟨i, flaw, hreports, rfl⟩ := Lexical.exists_reportsAt hd
    obtain ⟨c, rfl⟩ := Lexical.exists_eq_unexpected hmessage
    exact ⟨i, c, hreports, rfl⟩
  rintro i c ⟨es, e, es', hsplit, rfl, hflaw⟩
  obtain rfl := Lexical.eq_unknown_of_flaw? hflaw
  have hchars : chars source = es.flatMap Element.text ++ c :: es'.flatMap Element.text := by
    rw [← Element.flatMap_text_split (chars source), hsplit, List.flatMap_append,
      List.flatMap_cons]
    rfl
  have hspaced : chars (spaced (es.flatMap Element.text).length source) =
      es.flatMap Element.text ++ ' ' :: es'.flatMap Element.text := by
    rw [chars_spaced, hchars, List.set_append_right _ _ (Nat.le_refl _), Nat.sub_self]
    rfl
  have hline : (chars source).take (es.flatMap Element.text).length = es.flatMap Element.text := by
    rw [hchars, List.take_left]
  obtain ⟨hreports, hlex⟩ := Lexical.lexChars_space hsplit
  rw [← hspaced] at hlex
  refine ⟨by simp [hchars], chars_spaced _ _, ?_, _, _, ?_, congrArg Lexed.diagnostics hlex⟩
  · rw [lex, hlex, lex]
  · rw [hline]
    exact hreports

/-- A point between a number and a NUL: with a space in its place only its own report is gone. -/
theorem lex_spaced_point :
    let source : Bytes := [0x37, 0x2E, 0x00]
    Lexical.ReportsAt source 1 (.unexpected '.') ∧ spaced 1 source = [0x37, 0x20, 0x00] ∧
      (lex (spaced 1 source)).tokens = (lex source).tokens ∧
      ∃ before after,
        (lex source).diagnostics =
          before ++ .warning 1 "unexpected character '.' skipped" :: after ∧
        (lex (spaced 1 source)).diagnostics = before ++ after := by
  intro source
  have hsplit : Element.split (chars source) =
      [.number ['7'] none, .unknown '.', .unknown '\x00'] := by
    have hchars : chars source = ['7', '.', '\x00'] := by decide
    rw [hchars]
    simp +decide [Element.split, Element.first, Element.fraction?]
  have hreports : Lexical.ReportsAt source 1 (.unexpected '.') :=
    ⟨[.number ['7'] none], .unknown '.', [.unknown '\x00'], hsplit, rfl, rfl⟩
  obtain ⟨-, -, htokens, before, after, hdiagnostics, hspaced⟩ :=
    (lex_spaced source).2 1 '.' hreports
  exact ⟨hreports, by decide, htokens, before, after, hdiagnostics, hspaced⟩

end MiniC
