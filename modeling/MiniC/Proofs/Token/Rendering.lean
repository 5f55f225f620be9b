import MiniC.Proofs.Text.Piece
import MiniC.Proofs.Token.Readable
import MiniC.Text.Column

/-!
# Writing tokens out again

The tokens of a source can be written out again: each as its text, a string
between quotes with its quotes and backslashes escaped, and single spaces
between them. Reading what was written gives the same tokens, with no flaws but
the integers that are too large, because every token that can be read can also
be read in front of a space.
-/

namespace MiniC

open Text

/-- The byte of a double quote. -/
def Text.doubleQuote : UInt8 := 0x22

/-- The byte of a backslash. -/
def Text.backslash : UInt8 := 0x5C

/-- The byte of a decimal point. -/
def Text.point : UInt8 := 0x2E

/-- A text with a backslash before every backslash and every double quote. -/
def Text.guarded (bs : Bytes) : Bytes :=
  bs.flatMap fun b => if b = backslash ∨ b = doubleQuote then [backslash, b] else [b]

/-- A token as it is written in a source. -/
def Token.rendered (t : Token) : Bytes :=
  if t.kind = .string then doubleQuote :: guarded t.lexeme ++ [doubleQuote] else t.lexeme

/-- Tokens as they are written in a source, with single spaces between them. -/
def rendering (ts : List Token) : Bytes := [space].intercalate (ts.map Token.rendered)

/-- Whether a value is floating. -/
def Value.isFloat : Value → Bool
  | .int _ => false
  | .float _ => true

/-- Whether a token is a number that is floating for its size alone. -/
def Token.isLargeInteger (t : Token) : Bool :=
  t.kind = .number && t.value.isFloat && !t.lexeme.contains point

/-- What is reported about an integer that is too large. -/
def Token.largeReport (t : Token) : Diagnostic :=
  .warning t.line ("integer literal " ++ t.lexeme ++ " out of range, treated as floating")

namespace Lexical

open Element

/-! ## Reports -/

theorem contains_point_iff {cs : List Char} :
    (encode (String.ofList cs)).contains point = true ↔ '.' ∈ cs := by
  rw [encode_ofList, List.contains_iff_mem, List.mem_flatMap]
  constructor
  · rintro ⟨c, hc, hpoint⟩
    have hcpoint : c = '.' := eq_of_mem_encodeChar (d := '.') rfl hpoint
    exact hcpoint ▸ hc
  · intro h
    exact ⟨'.', h, List.mem_singleton_self point⟩

private theorem point_not_mem {s : List Char} (h : Digits s) : '.' ∉ s := by
  intro hpoint
  have hdigit := (digits_iff.mp h).2 '.' hpoint
  exact absurd hdigit (by decide)

private theorem reports_of_flawless {e : Element} {t : Token} {line : Nat}
    (hflaw : e.flaw? = none) (htoken : e.token? line = some t) (ht : t.isLargeInteger = false) :
    reports line e.flaw? =
      ((e.token? line).toList.filter Token.isLargeInteger).map Token.largeReport := by
  rw [hflaw, htoken, Option.toList_some, List.filter_cons_of_neg (by simp [ht])]
  rfl

private theorem largeReport_eq {t : Token} {s : List Char}
    (h : t.lexeme = encode (String.ofList s)) :
    t.largeReport = .warning t.line (Flaw.integerOutOfRange s).message := by
  have hmessage : (Flaw.integerOutOfRange s).message =
      "integer literal " ++ String.ofList s ++ " out of range, treated as floating" := rfl
  rw [hmessage, encode_append, encode_append, ← h, Token.largeReport]

/-- An integer is reported exactly if it does not fit. -/
private theorem reports_integer {s : List Char} (h : Digits s) (line : Nat) :
    reports line (flaw? (.number s none)) =
      ((token? line (.number s none)).toList.filter Token.isLargeInteger).map
        Token.largeReport := by
  cases hfits : Value.fits (decimal s) with
  | true =>
    have hvalue : literalValue s none = .int (Int64.ofNat (decimal s)) := by
      rw [literalValue, if_pos hfits]
    refine reports_of_flawless (by rw [flaw?, if_pos hfits]) rfl ?_
    rw [Token.isLargeInteger, hvalue, Value.isFloat, Bool.and_false, Bool.false_and]
  | false =>
    have hvalue : literalValue s none = .float (Float.ofScientific (decimal s) false 0) := by
      simp [literalValue, hfits]
    have hflaw : flaw? (.number s none) = some (.integerOutOfRange s) := by
      simp [flaw?, hfits]
    have hpoint : (encode (String.ofList s)).contains point = false := by
      rw [Bool.eq_false_iff]
      exact mt contains_point_iff.mp (point_not_mem h)
    let t : Token :=
      { kind := .number, lexeme := String.ofList s, line,
        value := .float (Float.ofScientific (decimal s) false 0) }
    have htoken : token? line (.number s none) = some t := by
      rw [token?, hvalue]
      rfl
    have hlarge : t.isLargeInteger = true := by
      rw [Token.isLargeInteger, hpoint]
      rfl
    rw [hflaw, htoken, Option.toList_some, List.filter_cons_of_pos hlarge, List.filter_nil,
      List.map_cons, List.map_nil, largeReport_eq (t := t) rfl, reports, Option.map_some,
      Option.toList_some]

/-- An element that heads a source has no flaw, unless it is a large integer. -/
theorem Heads.reports_eq {e : Element} {rest : List Char} (h : Heads e rest) (line : Nat) :
    reports line e.flaw? =
      ((e.token? line).toList.filter Token.isLargeInteger).map Token.largeReport := by
  cases h with
  | blank _ => rfl
  | integer hs _ => exact reports_integer hs line
  | @floating whole fraction _ _ _ _ =>
    have hpoint : (encode (String.ofList (whole ++ '.' :: fraction))).contains point = true :=
      contains_point_iff.mpr (by simp)
    refine reports_of_flawless rfl rfl ?_
    rw [Token.isLargeInteger, Element.text, hpoint, Bool.not_true, Bool.and_false]
  | @word c cs _ _ _ _ =>
    refine reports_of_flawless rfl rfl ?_
    rw [Token.isLargeInteger, Bool.and_eq_false_iff, Bool.and_eq_false_iff]
    exact .inl (.inr rfl)
  | string _ => rfl
  | comparing _ => rfl
  | sign _ _ => rfl
  | punct _ => rfl

theorem Readable.reportsFrom_eq {es : List Element} (h : Readable es) (line : Nat) :
    reportsFrom line es =
      ((tokensFrom line es).filter Token.isLargeInteger).map Token.largeReport := by
  induction h generalizing line with
  | nil => rfl
  | cons he _ ih =>
    rw [reportsFrom_cons, tokensFrom_cons, he.reports_eq, ih, List.filter_append, List.map_append]

/-! ## Single tokens -/

/-- A character of a string, behind a backslash if it needs one. -/
def guardedChar (c : Char) : List Char := if c = '\\' ∨ c = '"' then ['\\', c] else [c]

theorem content_guardedChar (content : List Char) :
    Content (content.flatMap guardedChar) content := by
  induction content with
  | nil => exact .nil
  | cons c content ih =>
    rw [List.flatMap_cons, guardedChar]
    by_cases hc : c = '\\' ∨ c = '"'
    · rw [if_pos hc]
      exact ih.guard hc.symm
    · rw [if_neg hc]
      rw [not_or] at hc
      exact .plain hc.2 hc.1 ih

/-- Escaping the characters of a string and escaping its bytes is the same. -/
theorem guarded_encode (content : List Char) :
    (content.flatMap guardedChar).flatMap encodeChar =
      guarded (encode (String.ofList content)) := by
  rw [encode_ofList, guarded, List.flatMap_assoc, List.flatMap_assoc]
  refine List.flatMap_congr fun c _ => ?_
  rw [guardedChar]
  by_cases hc : c = '\\' ∨ c = '"'
  · rcases hc with rfl | rfl
    · decide
    · decide
  · have hbytes : ∀ b ∈ encodeChar c,
        (if b = backslash ∨ b = doubleQuote then [backslash, b] else [b]) = [b] := by
      intro b hb
      refine if_neg ?_
      rintro (rfl | rfl)
      · exact hc (.inl (eq_of_mem_encodeChar (d := '\\') rfl hb))
      · exact hc (.inr (eq_of_mem_encodeChar (d := '"') rfl hb))
    rw [if_neg hc, List.flatMap_singleton, List.flatMap_congr hbytes, List.flatMap_singleton']

/-- An element that a token can be written as: it is read as the token in front of whatever keeps
apart from it. -/
structure Writes (e : Element) (t : Token) : Prop where
  text : e.text.flatMap encodeChar = t.rendered
  token : e.token? 0 = some t.unplaced
  heads : ∀ rest, Apart rest → Heads e rest

private theorem exists_writes_string (content : List Char) (line : Int) :
    ∃ e, Writes e { kind := .string, lexeme := String.ofList content, line } := by
  have hcontent := content_guardedChar content
  refine ⟨.quotation (content.flatMap guardedChar) true, ?_, ?_, fun rest _ => .string hcontent⟩
  · have hquote : ['"'].flatMap encodeChar = [doubleQuote] := by decide
    rw [Element.text, if_pos rfl, List.flatMap_append, List.flatMap_cons, hquote, guarded_encode]
    rfl
  · rw [token?, hcontent.unescape_eq]
    rfl

/-- Whatever can be read as a token can be written as an element. -/
theorem TokenText.exists_writes {s rest : List Char} {t : Token} {flaw : Option Flaw}
    (h : TokenText s rest t flaw) : ∃ e, Writes e t := by
  cases h with
  | @integer s _ line i hs hlt hi =>
    have hfits : Value.fits (decimal s) = true := fits_decimal_iff.mpr hlt
    have hvalue : literalValue s none = .int i := by
      have hint : (Int64.ofNat (decimal s)).toInt = i.toInt := by
        rw [hi, decimal_eq_numeral, Int64.toInt_ofNat_of_lt hlt]
      rw [literalValue, if_pos hfits, Int64.toInt_inj.mp hint]
    refine ⟨.number s none, ?_, ?_, fun rest => .integer hs⟩
    · exact (encode_ofList s).symm
    · rw [token?, hvalue]
      rfl
  | @largeInteger s _ line hs hle =>
    have hfits : Value.fits (decimal s) = false := by
      rw [Bool.eq_false_iff]
      exact mt fits_decimal_iff.mp (Nat.not_lt.mpr hle)
    have hvalue : literalValue s none = .float (Float.ofScientific (numeral s) false 0) := by
      rw [literalValue, hfits, ← decimal_eq_numeral]
      rfl
    refine ⟨.number s none, ?_, ?_, fun rest => .integer hs⟩
    · exact (encode_ofList s).symm
    · rw [token?, hvalue]
      rfl
  | @floating whole fraction _ line hw hf =>
    refine ⟨.number whole (some fraction), ?_, ?_, fun rest => .floating hw hf⟩
    · exact (encode_ofList _).symm
    · rw [token?, literalValue, decimal_eq_numeral]
      rfl
  | @word c cs _ line kind hc hcs hkind =>
    refine ⟨.word (c :: cs), ?_, ?_, fun rest => .word hc hcs⟩
    · have hnot : kind ≠ .string := by
        cases hkind with
        | _ => decide
      rw [Token.rendered, if_neg hnot, encode_ofList]
      rfl
    · rw [token?, wordKind_eq hkind]
      rfl
  | @string body content _ line hbody => exact exists_writes_string content line
  | @openString body content _ line hbody _ => exact exists_writes_string content line
  | operator hsign =>
    rcases mem_operators hsign with ⟨c, rfl, hc⟩ | ⟨c, rfl, hc⟩
    · exact ⟨.operator c false, (encode_ofList _).symm, rfl, fun rest => .sign hc⟩
    · exact ⟨.operator c true, (encode_ofList _).symm, rfl, fun rest _ => .comparing hc⟩
  | punct hsign =>
    obtain ⟨c, rfl, hc⟩ := mem_punctuators hsign
    exact ⟨.punct c, (encode_ofList _).symm, rfl, fun rest _ => .punct hc⟩

/-! ## Token streams -/

/-- Tokens that can be written one by one can be written together. -/
theorem exists_readable_rendering (ts : List Token) (h : ∀ t ∈ ts, ∃ e, Writes e t) :
    ∃ es, Readable es ∧ (es.flatMap Element.text).flatMap encodeChar = rendering ts ∧
      es.filterMap (Element.token? 0) = ts.map Token.unplaced := by
  induction ts with
  | nil => exact ⟨[], .nil, rfl, rfl⟩
  | cons t ts ih =>
    obtain ⟨e, he⟩ := h t List.mem_cons_self
    cases ts with
    | nil =>
      refine ⟨[e], .cons (he.heads _ apart_nil) .nil, ?_, ?_⟩
      · simp [rendering, he.text]
      · simp [he.token]
    | cons u ts =>
      obtain ⟨es, hes, htext, htokens⟩ := ih fun t' ht' => h t' (List.mem_cons_of_mem t ht')
      -- No token goes on over a space, so each is read without a look at the next one.
      refine ⟨e :: .blank ' ' :: es, ?_, ?_, ?_⟩
      · exact .cons (he.heads _ (apart_space _)) (.cons (.blank (by decide)) hes)
      · have hspace : (Element.blank ' ').text.flatMap encodeChar = [space] := by decide
        rw [List.flatMap_cons, List.flatMap_append, List.flatMap_cons, List.flatMap_append, he.text,
          hspace, htext]
        simp [rendering]
      · rw [List.filterMap_cons_some he.token, List.filterMap_cons_none rfl, htokens]
        rfl

/-- The tokens of a source that mark no end of it are those that are read before its end. -/
theorem filter_tokens_lex (source : Bytes) :
    ∃ spans : List Span, (lex source).tokens.filter (·.kind != .eof) = spans.map Span.token ∧
      ∀ p ∈ spans, ∃ rest flaw, TokenText p.text rest p.token flaw := by
  obtain ⟨spans, last, ds, haccount, htokens, -⟩ := accounts_split [] (chars source)
  have hreads : ∀ p ∈ spans, ∃ rest flaw, TokenText p.text rest p.token flaw := by
    intro p hp
    obtain ⟨earlier, later, hsplit⟩ := List.append_of_mem hp
    obtain ⟨flaw, htext, -⟩ := (haccount.reads earlier p later hsplit).text
    exact ⟨_, flaw, htext⟩
  have hlex : (lex source).tokens =
      spans.map Span.token ++ [endToken (1 + (chars source).count '\n' : Nat)] := by
    rw [← htokens]
    rfl
  refine ⟨spans, ?_, hreads⟩
  have hkept : ∀ t ∈ spans.map Span.token, (t.kind != .eof) = true := by
    intro t ht
    obtain ⟨p, hp, rfl⟩ := List.mem_map.mp ht
    obtain ⟨rest, flaw, htext⟩ := hreads p hp
    simpa using htext.kind_ne_eof
  rw [hlex, List.filter_append, List.filter_eq_self.mpr hkept]
  exact List.append_nil _

end Lexical

/-- Reading undoes writing out: the tokens of a source, written with single spaces between them,
are read again but for their lines, and only integers that are too large are reported. -/
theorem lex_rendering (source : Bytes) :
    let ts := (lex source).tokens.filter (·.kind != .eof)
    ∃ us line, (lex (rendering ts)).tokens = us ++ [endToken line] ∧
      List.Forall₂ Token.Alike us ts ∧
        (lex (rendering ts)).diagnostics =
          (us.filter Token.isLargeInteger).map Token.largeReport := by
  intro ts
  obtain ⟨spans, hspans, htexts⟩ := Lexical.filter_tokens_lex source
  have hwrites : ∀ t ∈ ts, ∃ e, Lexical.Writes e t := by
    intro t ht
    rw [show ts = spans.map Lexical.Span.token from hspans] at ht
    obtain ⟨p, hp, rfl⟩ := List.mem_map.mp ht
    obtain ⟨rest, flaw, htext⟩ := htexts p hp
    exact htext.exists_writes
  obtain ⟨es, hes, hbytes, htokens⟩ := Lexical.exists_readable_rendering ts hwrites
  have hlex := hes.lex_eq
  rw [hbytes] at hlex
  refine ⟨Lexical.tokensFrom 1 es, _, congrArg Lexed.tokens hlex, ?_, ?_⟩
  · rw [Token.forall₂_alike_iff, Lexical.unplaced_tokensFrom, htokens]
  · rw [hlex]
    exact hes.reportsFrom_eq 1

end MiniC
