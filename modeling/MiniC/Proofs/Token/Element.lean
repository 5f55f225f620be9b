import Mathlib.Data.List.Infix
import Mathlib.Data.List.TakeWhile
import MiniC.Proofs.Token.Lexical

/-!
# Elements and the lexical grammar

The element at the front of a source is a token or something to pass over, as
the lexical grammar has it, and it is the longest text of the grammar there.
For the latter every text that the grammar allows at the front of a source is
compared with the element that is found there.
-/

namespace MiniC.Lexical

open Element

/-! ## Characters -/

theorem isDigit_iff {c : Char} : isDigit c = true ↔ '0' ≤ c ∧ c ≤ '9' := by
  simp [isDigit]

theorem digits_iff {s : List Char} : Digits s ↔ s ≠ [] ∧ ∀ c ∈ s, isDigit c = true := by
  simp only [Digits, isDigit_iff]

theorem isDigit_toNat {c : Char} (h : isDigit c = true) : 48 ≤ c.toNat ∧ c.toNat ≤ 57 := by
  obtain ⟨hl, hu⟩ := isDigit_iff.mp h
  exact ⟨hl, hu⟩

private theorem contains_eq_false {rs : Text.CodeRanges} (h : rs.ascending = true) {n : Nat}
    (hn : ∀ r ∈ rs, r.2 < n ∨ n < r.1) : rs.contains n = false := by
  rw [Bool.eq_false_iff]
  intro hc
  obtain ⟨r, hr, hl, hu⟩ := (Text.CodeRanges.contains_iff h n).mp hc
  have := hn r hr
  omega

private theorem blanks_not_digits : ∀ b ∈ Text.blankRanges, b.2 < 48 ∨ 57 < b.1 := by decide

private theorem letters_not_digits : ∀ r ∈ Text.letterRanges, 57 < r.1 := by decide +kernel

private theorem letters_not_blanks :
    ∀ r ∈ Text.letterRanges, ∀ b ∈ Text.blankRanges, b.2 < r.1 ∨ r.2 < b.1 := by
  -- The kernel goes through both tables: as a test it does so without building proofs.
  have htest : (Text.letterRanges.all fun r => Text.blankRanges.all fun b =>
      b.2.blt r.1 || r.2.blt b.1) = true := by decide +kernel
  simpa only [List.all_eq_true, Bool.or_eq_true, Nat.blt_eq] using htest

theorem isBlank_of_isDigit {c : Char} (h : isDigit c = true) : Text.isBlank c = false := by
  have hc := isDigit_toNat h
  refine contains_eq_false Text.ascending_blankRanges fun b hb => ?_
  have := blanks_not_digits b hb
  omega

theorem startsWord_iff {c : Char} : startsWord c = true ↔ Text.isLetter c = true ∨ c = '_' := by
  simp [startsWord]

/-- All characters of a word continue it, the first one too. -/
theorem continuesWord_of_mem {c d : Char} {cs : List Char} (hc : startsWord c = true)
    (hcs : ∀ d ∈ cs, continuesWord d = true) (hd : d ∈ c :: cs) : continuesWord d = true := by
  rcases List.mem_cons.mp hd with rfl | hd
  · simp [continuesWord, hc]
  · exact hcs d hd

theorem isBlank_of_startsWord {c : Char} (h : startsWord c = true) : Text.isBlank c = false := by
  rcases startsWord_iff.mp h with h | rfl
  · obtain ⟨r, hr, hl, hu⟩ := (Text.CodeRanges.contains_iff Text.ascending_letterRanges _).mp h
    refine contains_eq_false Text.ascending_blankRanges fun b hb => ?_
    have := letters_not_blanks r hr b hb
    omega
  · decide

theorem startsWord_of_isDigit {c : Char} (h : isDigit c = true) : startsWord c = false := by
  have hc := isDigit_toNat h
  have hl : Text.isLetter c = false := by
    refine contains_eq_false Text.ascending_letterRanges fun r hr => ?_
    have := letters_not_digits r hr
    omega
  have hu : c ≠ '_' := by
    rintro rfl
    simp at hc
  simp [startsWord, hl, hu]

/-! ## Numbers -/

theorem decimal_eq_numeral (s : List Char) : decimal s = numeral s := by
  rw [decimal, numeral, Nat.ofDigits_eq_foldr, List.foldr_map, List.foldr_reverse]
  simp only [Nat.cast_id, Nat.add_comm]

/-! ## Strings -/

theorem quotationBody_quote (rest : List Char) :
    quotationBody ('"' :: rest) = ([], true, rest) := by
  cases rest with
  | nil => rfl
  | cons d rest => rfl

theorem quotationBody_escape (d : Char) (rest : List Char) :
    quotationBody ('\\' :: d :: rest) =
      ('\\' :: d :: (quotationBody rest).1, (quotationBody rest).2) := rfl

theorem quotationBody_plain {c : Char} (hq : c ≠ '"') (hb : c ≠ '\\') (rest : List Char) :
    quotationBody (c :: rest) = (c :: (quotationBody rest).1, (quotationBody rest).2) := by
  cases rest with
  | nil => simp [quotationBody, hq]
  | cons d rest => simp [quotationBody, hq, hb]

theorem unescape_plain {c : Char} (hb : c ≠ '\\') (rest : List Char) :
    unescape (c :: rest) = c :: unescape rest := by
  cases rest with
  | nil => simp [unescape, hb]
  | cons d rest => simp [unescape, hb]

theorem unescape_escape (d : Char) (rest : List Char) :
    unescape ('\\' :: d :: rest) = unescaped d :: unescape rest := rfl

namespace Content

variable {body content : List Char}

/-- A string is closed by the first quote that is not part of its content. -/
theorem quotationBody_append_quote (h : Content body content) (rest : List Char) :
    quotationBody (body ++ '"' :: rest) = (body, true, rest) := by
  induction h with
  | nil => exact quotationBody_quote rest
  | plain hq hb _ ih => rw [List.cons_append, quotationBody_plain hq hb, ih]
  | lineFeed _ ih => rw [List.cons_append, List.cons_append, quotationBody_escape, ih]
  | tab _ ih => rw [List.cons_append, List.cons_append, quotationBody_escape, ih]
  | escaped _ _ _ ih => rw [List.cons_append, List.cons_append, quotationBody_escape, ih]

/-- A string without such a quote runs to the end. -/
theorem quotationBody_append_backslash (h : Content body content) {backslash : List Char}
    (hb : backslash = [] ∨ backslash = ['\\']) :
    quotationBody (body ++ backslash) = (body ++ backslash, false, []) := by
  induction h with
  | nil => rcases hb with rfl | rfl <;> rfl
  | plain hq hb _ ih => rw [List.cons_append, quotationBody_plain hq hb, ih]
  | lineFeed _ ih => rw [List.cons_append, List.cons_append, quotationBody_escape, ih]
  | tab _ ih => rw [List.cons_append, List.cons_append, quotationBody_escape, ih]
  | escaped _ _ _ ih => rw [List.cons_append, List.cons_append, quotationBody_escape, ih]

theorem unescape_append_backslash (h : Content body content) {backslash : List Char}
    (hb : backslash = [] ∨ backslash = ['\\']) : unescape (body ++ backslash) = content := by
  induction h with
  | nil => rcases hb with rfl | rfl <;> rfl
  | plain _ hb _ ih => rw [List.cons_append, unescape_plain hb, ih]
  | lineFeed _ ih =>
    rw [List.cons_append, List.cons_append, unescape_escape, ih]
    rfl
  | tab _ ih =>
    rw [List.cons_append, List.cons_append, unescape_escape, ih]
    rfl
  | escaped hn ht _ ih =>
    rw [List.cons_append, List.cons_append, unescape_escape, ih]
    simp [unescaped, hn, ht]

theorem unescape_eq (h : Content body content) : unescape body = content := by
  simpa using h.unescape_append_backslash (.inl rfl)

/-- An escape sequence in front of what can be read. -/
theorem escape (d : Char) (h : Content body content) :
    Content ('\\' :: d :: body) (unescaped d :: content) := by
  by_cases hn : d = 'n'
  · subst hn
    exact .lineFeed h
  · by_cases ht : d = 't'
    · subst ht
      exact .tab h
    · simpa [unescaped, hn, ht] using Content.escaped hn ht h

/-- Quotes and backslashes stand for themselves behind a backslash. -/
theorem guard {c : Char} (hc : c = '"' ∨ c = '\\') (h : Content body content) :
    Content ('\\' :: c :: body) (c :: content) := by
  rcases hc with rfl | rfl
  · exact h.escape '"'
  · exact h.escape '\\'

end Content

/-- What is found behind an opening quote has content: all of it before a closing quote, and all
but a last backslash before the end of the source. -/
theorem content_quotationBody (cs : List Char) :
    (∃ body content rest, quotationBody cs = (body, true, rest) ∧ Content body content) ∨
      ∃ body backslash content, quotationBody cs = (body ++ backslash, false, []) ∧
        Content body content ∧ (backslash = [] ∨ backslash = ['\\']) := by
  induction hn : cs.length using Nat.strongRecOn generalizing cs with
  | ind n ih =>
    subst hn
    cases cs with
    | nil => exact .inr ⟨[], [], [], rfl, .nil, .inl rfl⟩
    | cons c rest =>
      by_cases hq : c = '"'
      · subst hq
        exact .inl ⟨[], [], rest, quotationBody_quote rest, .nil⟩
      by_cases hb : c = '\\'
      · subst hb
        cases rest with
        | nil => exact .inr ⟨[], ['\\'], [], rfl, .nil, .inr rfl⟩
        | cons d rest =>
          rw [quotationBody_escape]
          rcases ih rest.length (by simp only [List.length_cons]; omega) rest rfl with
            ⟨body, content, rest', h, hc⟩ | ⟨body, backslash, content, h, hc, hend⟩
          · exact .inl ⟨_, _, rest', by rw [h], hc.escape d⟩
          · exact .inr ⟨_, backslash, _, by rw [h]; rfl, hc.escape d, hend⟩
      · rw [quotationBody_plain hq hb]
        rcases ih rest.length (Nat.lt_succ_self _) rest rfl with
          ⟨body, content, rest', h, hc⟩ | ⟨body, backslash, content, h, hc, hend⟩
        · exact .inl ⟨_, _, rest', by rw [h], .plain hq hb hc⟩
        · exact .inr ⟨_, backslash, _, by rw [h]; rfl, .plain hq hb hc, hend⟩

/-! ## Comments -/

theorem commentBody_plain {c : Char} {rest : List Char} (h : ¬ ['*', '/'] <+: c :: rest) :
    commentBody (c :: rest) = (c :: (commentBody rest).1, (commentBody rest).2) := by
  cases rest with
  | nil => rfl
  | cons d rest =>
    have hcd : ¬ (c = '*' ∧ d = '/') := by
      rintro ⟨rfl, rfl⟩
      exact h ⟨rest, rfl⟩
    simp [commentBody, hcd]

/-- A comment is closed by the first closing sign behind its opening. -/
theorem commentBody_append_close {body : List Char} (h : ¬ ['*', '/'] <:+: body)
    (rest : List Char) : commentBody (body ++ '*' :: '/' :: rest) = (body, true, rest) := by
  induction body with
  | nil => rfl
  | cons c body ih =>
    rw [List.infix_cons_iff, not_or] at h
    have hstart : ¬ ['*', '/'] <+: c :: (body ++ '*' :: '/' :: rest) := by
      rw [List.cons_prefix_cons]
      rintro ⟨rfl, hnext⟩
      cases body with
      | nil => simp at hnext
      | cons d body =>
        rw [List.cons_append, List.cons_prefix_cons] at hnext
        exact h.1 (by simpa [List.cons_prefix_cons] using hnext.1)
    rw [List.cons_append, commentBody_plain hstart, ih h.2]

theorem commentBody_of_not_infix {body : List Char} (h : ¬ ['*', '/'] <:+: body) :
    commentBody body = (body, false, []) := by
  induction body with
  | nil => rfl
  | cons c body ih =>
    rw [List.infix_cons_iff, not_or] at h
    rw [commentBody_plain h.1, ih h.2]

/-- No closing sign stands in the body of a comment, and one that is not closed is the rest of
the source. -/
theorem not_infix_commentBody (cs : List Char) :
    (∃ body rest, commentBody cs = (body, true, rest) ∧ ¬ ['*', '/'] <:+: body) ∨
      commentBody cs = (cs, false, []) ∧ ¬ ['*', '/'] <:+: cs := by
  induction cs with
  | nil => exact .inr ⟨rfl, by simp⟩
  | cons c cs ih =>
    by_cases hclose : ['*', '/'] <+: c :: cs
    · obtain ⟨rest, hrest⟩ := hclose
      rw [← hrest]
      exact .inl ⟨[], rest, rfl, by simp⟩
    · rw [commentBody_plain hclose]
      rcases ih with ⟨body, rest, h, hbody⟩ | ⟨h, hcs⟩
      · refine .inl ⟨c :: body, rest, by rw [h], ?_⟩
        have hprefix : c :: body <+: c :: cs := by
          have happend := commentBody_append cs
          rw [h] at happend
          exact (List.prefix_cons_inj c).mpr ⟨_, by simpa using happend⟩
        rw [List.infix_cons_iff, not_or]
        exact ⟨fun hstart => hclose (hstart.trans hprefix), hbody⟩
      · refine .inr ⟨by rw [h], ?_⟩
        rw [List.infix_cons_iff, not_or]
        exact ⟨hclose, hcs⟩

/-! ## Signs -/

theorem singleton_mem_operators {c : Char} :
    [c] ∈ operators ↔ isComparing c = true ∨ isArithmetic c = true := by
  simp [operators, isComparing, isArithmetic, or_assoc]

theorem pair_mem_operators {c d : Char} :
    [c, d] ∈ operators ↔ isComparing c = true ∧ d = '=' := by
  simp only [operators, isComparing, List.mem_cons, List.cons.injEq, List.cons_ne_nil,
    List.not_mem_nil, and_true, and_false, or_false, Bool.or_eq_true, beq_iff_eq]
  grind

theorem singleton_mem_punctuators {c : Char} : [c] ∈ punctuators ↔ isPunct c = true := by
  simp [punctuators, isPunct, or_assoc]

private theorem length_operators : ∀ s ∈ operators, s.length = 1 ∨ s.length = 2 := by decide

private theorem length_punctuators : ∀ s ∈ punctuators, s.length = 1 := by decide

/-- An operator is a single sign or one that is extended by an equals sign. -/
theorem mem_operators {s : List Char} (h : s ∈ operators) :
    (∃ c, s = [c] ∧ (isComparing c = true ∨ isArithmetic c = true)) ∨
      ∃ c, s = [c, '='] ∧ isComparing c = true := by
  rcases length_operators s h with hlen | hlen
  · obtain ⟨c, rfl⟩ := List.length_eq_one_iff.mp hlen
    exact .inl ⟨c, rfl, singleton_mem_operators.mp h⟩
  · obtain ⟨c, d, rfl⟩ := List.length_eq_two.mp hlen
    obtain ⟨hc, rfl⟩ := pair_mem_operators.mp h
    exact .inr ⟨c, rfl, hc⟩

theorem mem_punctuators {s : List Char} (h : s ∈ punctuators) :
    ∃ c, s = [c] ∧ isPunct c = true := by
  obtain ⟨c, rfl⟩ := List.length_eq_one_iff.mp (length_punctuators s h)
  exact ⟨c, rfl, singleton_mem_punctuators.mp h⟩

/-! ## The element at the front of a source -/

/-- What stands at the front of a source, read on a line: a token of this line or something that
is passed over, with the flaw that is found in it. -/
def ReadsAs (e : Element) (rest : List Char) (line : Int) : Prop :=
  (∃ t, e.token? line = some t ∧ t.line = line ∧ TokenText e.text rest t e.flaw?) ∨
    e.token? line = none ∧ SkippedText e.text rest e.flaw?

private theorem readsAs_remark {c : Char} {rest : List Char} (line : Int)
    (h : c = '#' ∨ c = '/' ∧ rest.head? = some '/') :
    ReadsAs (.remark ((c :: rest).takeWhile (· != '\n')))
      ((c :: rest).dropWhile (· != '\n')) line := by
  refine .inr ⟨rfl, ?_⟩
  have hnext : ∀ d ∈ ((c :: rest).dropWhile (· != '\n')).head?, d = '\n' := by
    intro d hd
    have := List.head?_dropWhile_not (· != '\n') (c :: rest)
    rw [hd] at this
    simpa using this
  have hline (cs : List Char) : '\n' ∉ cs.takeWhile (· != '\n') := by
    intro hmem
    simpa using List.mem_takeWhile_imp hmem
  rcases h with rfl | ⟨rfl, hrest⟩
  · exact .directive (hline rest) hnext
  · obtain ⟨rest, rfl⟩ := List.head?_eq_some_iff.mp hrest
    exact .lineComment (hline rest) hnext

private theorem readsAs_comment (cs : List Char) (line : Int) :
    ReadsAs (.comment (commentBody cs).1 (commentBody cs).2.1) (commentBody cs).2.2 line := by
  refine .inr ⟨by rfl, ?_⟩
  rcases not_infix_commentBody cs with ⟨body, rest, h, hbody⟩ | ⟨h, hcs⟩
  · rw [h]
    exact .comment hbody
  · rw [h]
    simpa [text, flaw?] using SkippedText.openComment hcs

theorem digits_takeWhile {c : Char} (h : isDigit c = true) (rest : List Char) :
    Digits ((c :: rest).takeWhile isDigit) := by
  rw [digits_iff]
  refine ⟨by simp [h], fun d hd => List.mem_takeWhile_imp hd⟩

theorem digits_of_fraction? {cs fraction rest : List Char}
    (h : fraction? cs = some (fraction, rest)) : Digits fraction := by
  unfold fraction? at h
  split at h
  · rename_i p d tail
    split at h
    · rename_i hd
      cases h
      exact digits_takeWhile hd.2 tail
    · cases h
  · cases h

theorem fits_decimal_iff {s : List Char} :
    Value.fits (decimal s) = true ↔ numeral s < 2 ^ 63 := by
  rw [decimal_eq_numeral, Value.fits, Bool.and_eq_true, decide_eq_true_eq, decide_eq_true_eq]
  omega

private theorem readsAs_integer {s : List Char} (h : Digits s) (rest : List Char) (line : Int) :
    ReadsAs (.number s none) rest line := by
  refine .inl ⟨_, rfl, rfl, ?_⟩
  by_cases hlt : numeral s < 2 ^ 63
  · have hvalue : literalValue s none = .int (Int64.ofNat (numeral s)) := by
      rw [literalValue, if_pos (fits_decimal_iff.mpr hlt), decimal_eq_numeral]
    rw [hvalue, flaw?, if_pos (fits_decimal_iff.mpr hlt)]
    exact .integer h hlt (Int64.toInt_ofNat_of_lt hlt)
  · have hfits := mt fits_decimal_iff.mp hlt
    rw [literalValue, flaw?, if_neg hfits, if_neg hfits, decimal_eq_numeral]
    exact .largeInteger h (Nat.le_of_not_lt hlt)

private theorem readsAs_floating {whole fraction : List Char} (hw : Digits whole)
    (hf : Digits fraction) (rest : List Char) (line : Int) :
    ReadsAs (.number whole (some fraction)) rest line := by
  refine .inl ⟨_, rfl, rfl, ?_⟩
  rw [literalValue, decimal_eq_numeral]
  exact .floating hw hf

private theorem wordKind_sound (word : String) : WordKind word (wordKind word) := by
  rw [wordKind]
  by_cases hk : word ∈ keywords
  · rw [if_pos (by simpa using hk)]
    exact .keyword hk
  · rw [if_neg (by simpa using hk)]
    by_cases ht : word ∈ typeWords
    · rw [if_pos (by simpa using ht)]
      exact .type ht
    · rw [if_neg (by simpa using ht)]
      exact .identifier hk ht

private theorem readsAs_word {c : Char} (h : startsWord c = true) (rest : List Char) (line : Int) :
    ReadsAs (.word ((c :: rest).takeWhile continuesWord))
      ((c :: rest).dropWhile continuesWord) line := by
  refine .inl ⟨_, rfl, rfl, ?_⟩
  have hc : continuesWord c = true := by simp [continuesWord, h]
  rw [text, List.takeWhile_cons_of_pos hc]
  exact .word h (fun d hd => List.mem_takeWhile_imp hd) (wordKind_sound _)

private theorem readsAs_quotation (cs : List Char) (line : Int) :
    ReadsAs (.quotation (quotationBody cs).1 (quotationBody cs).2.1) (quotationBody cs).2.2
      line := by
  refine .inl ⟨_, rfl, rfl, ?_⟩
  rcases content_quotationBody cs with
    ⟨body, content, rest, h, hc⟩ | ⟨body, backslash, content, h, hc, hend⟩
  · have hcontent := hc.unescape_append_backslash (.inl rfl)
    rw [List.append_nil] at hcontent
    rw [h, hcontent]
    exact .string hc
  · rw [h, hc.unescape_append_backslash hend]
    simpa [text, flaw?] using TokenText.openString hc hend

/-- What belongs to no class of characters starts nothing of the language. -/
theorem unknown_of_classes {c : Char} (hblank : ¬ Text.isBlank c) (hdigit : ¬ isDigit c)
    (hword : ¬ startsWord c) (hquote : c ≠ '"') (hdirective : c ≠ '#')
    (hsign : ¬ (isComparing c ∨ isArithmetic c)) (hpunct : ¬ isPunct c) : Unknown c where
  not_blank := by simpa using hblank
  not_digit := by simpa using hdigit
  not_word := by simpa using hword
  not_quote := hquote
  not_directive := hdirective
  not_sign := by
    intro sign hmem hhead
    rcases List.mem_append.mp hmem with hmem | hmem
    · rcases mem_operators hmem with ⟨d, rfl, hd⟩ | ⟨d, rfl, hd⟩
      · cases hhead
        exact hsign hd
      · cases hhead
        exact hsign (.inl hd)
    · obtain ⟨d, rfl, hd⟩ := mem_punctuators hmem
      cases hhead
      exact hpunct hd

/-- The first element of a source is what the lexical grammar says. -/
theorem readsAs_first (c : Char) (rest : List Char) (line : Int) :
    ReadsAs (first c rest).1 (first c rest).2 line := by
  fun_cases first c rest with
  | case1 h => exact .inr ⟨rfl, .blank h⟩
  | case2 _ h => exact readsAs_remark line h
  | case3 _ _ h body closed rest' hb =>
    have := readsAs_comment rest.tail line
    rwa [hb] at this
  | case4 _ _ _ h fraction rest' hf =>
    exact readsAs_floating (digits_takeWhile h rest) (digits_of_fraction? hf) rest' line
  | case5 _ _ _ h => exact readsAs_integer (digits_takeWhile h rest) _ line
  | case6 _ _ _ _ h => exact readsAs_word h rest line
  | case7 _ _ _ _ _ h body closed rest' hb =>
    have := readsAs_quotation rest line
    rwa [hb] at this
  | case8 _ _ _ _ _ _ h =>
    exact .inl ⟨_, rfl, rfl, .operator (pair_mem_operators.mpr ⟨h.1, rfl⟩)⟩
  | case9 _ _ _ _ _ _ _ h => exact .inl ⟨_, rfl, rfl, .operator (singleton_mem_operators.mpr h)⟩
  | case10 _ _ _ _ _ _ _ _ h =>
    exact .inl ⟨_, rfl, rfl, .punct (singleton_mem_punctuators.mpr h)⟩
  | case11 hb hr hc hd hw hq ho hs hp =>
    exact .inr ⟨rfl, .unknown (unknown_of_classes hb hd hw hq (fun h => hr (.inl h)) hs hp)⟩

/-! ## The longest text at the front of a source -/

private theorem isDigit_ne {c : Char} (h : isDigit c = true) : c ≠ '#' ∧ c ≠ '/' := by
  constructor
  · rintro rfl
    exact absurd h (by decide)
  · rintro rfl
    exact absurd h (by decide)

theorem first_of_fraction {c : Char} {rest rest' fraction : List Char}
    (h : isDigit c = true)
    (hf : fraction? ((c :: rest).dropWhile isDigit) = some (fraction, rest')) :
    first c rest = (.number ((c :: rest).takeWhile isDigit) (some fraction), rest') := by
  obtain ⟨hd, hs⟩ := isDigit_ne h
  unfold first
  simp only [isBlank_of_isDigit h, hd, hs, h, hf, false_and, or_self, Bool.false_eq_true, if_true,
    if_false]

theorem first_of_integer {c : Char} {rest : List Char} (h : isDigit c = true)
    (hf : fraction? ((c :: rest).dropWhile isDigit) = none) :
    first c rest =
      (.number ((c :: rest).takeWhile isDigit) none, (c :: rest).dropWhile isDigit) := by
  obtain ⟨hd, hs⟩ := isDigit_ne h
  unfold first
  simp only [isBlank_of_isDigit h, hd, hs, h, hf, false_and, or_self, Bool.false_eq_true, if_true,
    if_false]

theorem first_of_startsWord {c : Char} (h : startsWord c = true) (rest : List Char) :
    first c rest =
      (.word ((c :: rest).takeWhile continuesWord), (c :: rest).dropWhile continuesWord) := by
  have hd : c ≠ '#' := by
    rintro rfl
    exact absurd h (by decide)
  have hs : c ≠ '/' := by
    rintro rfl
    exact absurd h (by decide)
  have hdigit : isDigit c = false := by
    rw [Bool.eq_false_iff]
    intro hdigit
    simp [startsWord_of_isDigit hdigit] at h
  unfold first
  simp [isBlank_of_startsWord h, hd, hs, hdigit, h]

theorem first_quote (rest : List Char) :
    first '"' rest =
      (.quotation (quotationBody rest).1 (quotationBody rest).2.1, (quotationBody rest).2.2) := rfl

theorem first_comment (rest : List Char) :
    first '/' ('*' :: rest) =
      (.comment (commentBody rest).1 (commentBody rest).2.1, (commentBody rest).2.2) := rfl

theorem first_of_remark {c : Char} {rest : List Char}
    (h : c = '#' ∨ c = '/' ∧ rest.head? = some '/') :
    first c rest =
      (.remark ((c :: rest).takeWhile (· != '\n')), (c :: rest).dropWhile (· != '\n')) := by
  have hb : Text.isBlank c = false := by
    rcases h with rfl | ⟨rfl, -⟩
    · decide
    · decide
  unfold first
  simp [hb, h]

theorem first_of_isComparing {c : Char} (h : isComparing c = true) (rest : List Char) :
    first c ('=' :: rest) = (.operator c true, rest) := by
  simp only [isComparing, Bool.or_eq_true, beq_iff_eq] at h
  rcases h with ((rfl | rfl) | rfl) | rfl
  · rfl
  · rfl
  · rfl
  · rfl

/-- The first element is at least as long as a run of characters that it starts with. -/
private theorem length_le_takeWhile {p : Char → Bool} {s : List Char} (h : ∀ c ∈ s, p c = true)
    (rest : List Char) : s.length ≤ ((s ++ rest).takeWhile p).length := by
  rw [List.takeWhile_append_of_pos h, List.length_append]
  omega

variable {c : Char} {s rest rest' : List Char}

private theorem length_digits_le (hs : s ++ rest' = c :: rest) (h : Digits s) :
    s.length ≤ (first c rest).1.text.length := by
  obtain ⟨hne, hall⟩ := digits_iff.mp h
  have hc : isDigit c = true := by
    obtain ⟨d, s, rfl⟩ := List.exists_cons_of_ne_nil hne
    cases hs
    exact hall c (by simp)
  have hle := length_le_takeWhile hall rest'
  rw [hs] at hle
  cases hf : fraction? ((c :: rest).dropWhile isDigit) with
  | none =>
    rw [first_of_integer hc hf]
    exact hle
  | some p =>
    rw [first_of_fraction hc hf, text, List.length_append]
    omega

private theorem length_floating_le {whole fraction : List Char}
    (hs : (whole ++ '.' :: fraction) ++ rest' = c :: rest) (hw : Digits whole)
    (hf : Digits fraction) :
    (whole ++ '.' :: fraction).length ≤ (first c rest).1.text.length := by
  obtain ⟨hne, hall⟩ := digits_iff.mp hw
  obtain ⟨hne', hall'⟩ := digits_iff.mp hf
  have hc : isDigit c = true := by
    obtain ⟨d, s, rfl⟩ := List.exists_cons_of_ne_nil hne
    cases hs
    exact hall c (by simp)
  have hpoint : isDigit '.' = false := by decide
  have htake : (c :: rest).takeWhile isDigit = whole := by
    rw [← hs, List.append_assoc, List.takeWhile_append_of_pos hall]
    simp [hpoint]
  have hdrop : (c :: rest).dropWhile isDigit = '.' :: (fraction ++ rest') := by
    rw [← hs, List.append_assoc, List.dropWhile_append_of_pos hall]
    simp [hpoint]
  have hle := length_le_takeWhile hall' rest'
  have hfraction : fraction? ('.' :: (fraction ++ rest')) =
      some ((fraction ++ rest').takeWhile isDigit, (fraction ++ rest').dropWhile isDigit) := by
    obtain ⟨d, fraction, rfl⟩ := List.exists_cons_of_ne_nil hne'
    simp [fraction?, hall' d (by simp)]
  rw [← hdrop] at hfraction
  rw [first_of_fraction hc hfraction, htake]
  simp only [text, List.length_append, List.length_cons]
  omega

private theorem length_remark_le (hs : s ++ rest' = c :: rest)
    (h : c = '#' ∨ c = '/' ∧ rest.head? = some '/') (hline : '\n' ∉ s) :
    s.length ≤ (first c rest).1.text.length := by
  rw [first_of_remark h, ← hs]
  refine length_le_takeWhile ?_ rest'
  intro d hd
  simp only [bne_iff_ne]
  rintro rfl
  exact hline hd

/-- Nothing that stands at the front of a source is longer than its first element. -/
theorem length_le_first (hs : s ++ rest' = c :: rest) (h : Stands s rest') :
    s.length ≤ (first c rest).1.text.length := by
  have hpos := List.length_pos_iff.mpr (text_first_ne_nil c rest)
  rcases h with ⟨t, flaw, h⟩ | ⟨flaw, h⟩
  · cases h with
    | integer h _ _ => exact length_digits_le hs h
    | largeInteger h _ => exact length_digits_le hs h
    | floating hw hf => exact length_floating_le hs hw hf
    | @word d cs _ _ _ hd hcs _ =>
      have hall : ∀ e ∈ d :: cs, continuesWord e = true := fun e => continuesWord_of_mem hd hcs
      obtain ⟨rfl, rfl⟩ : d = c ∧ cs ++ rest' = rest := by simpa using hs
      rw [first_of_startsWord hd]
      exact length_le_takeWhile hall rest'
    | @string body _ _ _ h =>
      obtain ⟨rfl, rfl⟩ : '"' = c ∧ body ++ '"' :: rest' = rest := by simpa using hs
      rw [first_quote, h.quotationBody_append_quote]
      simp [text]
    | @openString body _ backslash _ h hend =>
      obtain ⟨rfl, rfl⟩ : '"' = c ∧ body ++ backslash = rest := by simpa using hs
      rw [first_quote, h.quotationBody_append_backslash hend]
      simp [text]
    | operator h =>
      rcases mem_operators h with ⟨d, rfl, -⟩ | ⟨d, rfl, hd⟩
      · exact hpos
      · obtain ⟨rfl, rfl⟩ : d = c ∧ '=' :: rest' = rest := by simpa using hs
        rw [first_of_isComparing hd]
        simp [text]
    | punct h =>
      obtain ⟨d, rfl, -⟩ := mem_punctuators h
      exact hpos
  · cases h with
    | blank _ => exact hpos
    | @lineComment body _ hline _ =>
      obtain ⟨rfl, rfl⟩ : '/' = c ∧ '/' :: (body ++ rest') = rest := by simpa using hs
      exact length_remark_le hs (.inr ⟨rfl, rfl⟩) (by simpa using hline)
    | @directive body _ hline _ =>
      obtain ⟨rfl, rfl⟩ : '#' = c ∧ body ++ rest' = rest := by simpa using hs
      exact length_remark_le hs (.inl rfl) (by simpa using hline)
    | @comment body _ h =>
      obtain ⟨rfl, rfl⟩ : '/' = c ∧ '*' :: (body ++ '*' :: '/' :: rest') = rest := by
        simpa using hs
      rw [first_comment, commentBody_append_close h]
      simp [text]
    | @openComment body h =>
      obtain ⟨rfl, rfl⟩ : '/' = c ∧ '*' :: body = rest := by simpa using hs
      rw [first_comment, commentBody_of_not_infix h]
      simp [text]
    | unknown _ => exact hpos

/-- The first element of a source is the longest text that stands there. -/
theorem longest_first (c : Char) (rest : List Char) :
    Longest (first c rest).1.text (first c rest).2 := by
  intro s' rest' hs h
  rw [text_first_append] at hs
  exact length_le_first hs h

private theorem signs_not_blank :
    ∀ s ∈ operators ++ punctuators, s.any Text.isBlank = false := by decide

/-- The text of a token starts with a character that is not blank. -/
theorem TokenText.starts {t : Token} {flaw : Option Flaw} (h : TokenText s rest t flaw) :
    ∃ c cs, s = c :: cs ∧ Text.isBlank c = false := by
  have hdigits {s : List Char} (h : Digits s) : ∃ c cs, s = c :: cs ∧ Text.isBlank c = false := by
    obtain ⟨hne, hall⟩ := digits_iff.mp h
    obtain ⟨c, cs, rfl⟩ := List.exists_cons_of_ne_nil hne
    exact ⟨c, cs, rfl, isBlank_of_isDigit (hall c (by simp))⟩
  have hsign {s : List Char} (h : s ∈ operators ++ punctuators) (hne : s ≠ []) :
      ∃ c cs, s = c :: cs ∧ Text.isBlank c = false := by
    obtain ⟨c, cs, rfl⟩ := List.exists_cons_of_ne_nil hne
    have hblank := signs_not_blank _ h
    rw [List.any_cons, Bool.or_eq_false_iff] at hblank
    exact ⟨c, cs, rfl, hblank.1⟩
  cases h with
  | integer h _ _ => exact hdigits h
  | largeInteger h _ => exact hdigits h
  | floating hw _ =>
    obtain ⟨c, cs, rfl, hc⟩ := hdigits hw
    exact ⟨c, _, List.cons_append, hc⟩
  | word hc _ _ => exact ⟨_, _, rfl, isBlank_of_startsWord hc⟩
  | string _ => exact ⟨_, _, rfl, by decide⟩
  | openString _ _ => exact ⟨_, _, rfl, by decide⟩
  | operator h =>
    refine hsign (List.mem_append_left _ h) ?_
    rintro rfl
    exact absurd h (by decide)
  | punct h =>
    refine hsign (List.mem_append_right _ h) ?_
    rintro rfl
    exact absurd h (by decide)

end MiniC.Lexical
