import MiniC.Proofs.Token.Element

/-!
# Where elements end

Whether an element ends where it does is decided by the next two characters at
most. An element is the first of a source exactly if it is made as its kind is
made and what follows does not continue it. So behind an element the source may
change, as long as no change continues the element: a blank never does.
-/

namespace MiniC.Lexical

open Element

/-- The characters that go on do not start with one that a property holds of. -/
def Stops (p : Char → Bool) (rest : List Char) : Prop := ∀ c ∈ rest.head?, p c = false

/-- The elements that are read at the front of a source, with what follows them there. -/
inductive Ends : Element → List Char → Prop
  | blank {c : Char} {rest : List Char} : Text.isBlank c → Ends (.blank c) rest
  | remark {c : Char} {body rest : List Char} :
    c = '#' ∨ c = '/' ∧ body.head? = some '/' → '\n' ∉ body → Stops (· != '\n') rest →
      Ends (.remark (c :: body)) rest
  | comment {body rest : List Char} : ¬ ['*', '/'] <:+: body → Ends (.comment body true) rest
  | openComment {body : List Char} : ¬ ['*', '/'] <:+: body → Ends (.comment body false) []
  | integer {s rest : List Char} :
    Digits s → Stops isDigit rest → fraction? rest = none → Ends (.number s none) rest
  | floating {whole fraction rest : List Char} :
    Digits whole → Digits fraction → Stops isDigit rest →
      Ends (.number whole (some fraction)) rest
  | word {c : Char} {cs rest : List Char} :
    startsWord c → (∀ d ∈ cs, continuesWord d) → Stops continuesWord rest →
      Ends (.word (c :: cs)) rest
  | string {body content rest : List Char} :
    Content body content → Ends (.quotation body true) rest
  | openString {body content backslash : List Char} :
    Content body content → backslash = [] ∨ backslash = ['\\'] →
      Ends (.quotation (body ++ backslash) false) []
  | comparing {c : Char} {rest : List Char} : isComparing c → Ends (.operator c true) rest
  | sign {c : Char} {rest : List Char} :
    isComparing c ∨ isArithmetic c → (isComparing c → Stops (· == '=') rest) →
      (c = '/' → Stops (fun d => d == '/' || d == '*') rest) → Ends (.operator c false) rest
  | punct {c : Char} {rest : List Char} : isPunct c → Ends (.punct c) rest
  | unknown {c : Char} {rest : List Char} : Unknown c → Ends (.unknown c) rest

/-! ## Runs of characters -/

section Runs

variable {p : Char → Bool} {s rest : List Char}

theorem stops_dropWhile (p : Char → Bool) (cs : List Char) : Stops p (cs.dropWhile p) := by
  intro c hc
  have hstop := List.head?_dropWhile_not p cs
  rw [Option.mem_def.mp hc] at hstop
  exact hstop

theorem takeWhile_append_stop (hs : ∀ c ∈ s, p c = true) (hrest : Stops p rest) :
    (s ++ rest).takeWhile p = s := by
  rw [List.takeWhile_append_of_pos hs]
  cases rest with
  | nil => simp
  | cons c rest => simp [hrest c rfl]

theorem dropWhile_append_stop (hs : ∀ c ∈ s, p c = true) (hrest : Stops p rest) :
    (s ++ rest).dropWhile p = rest := by
  rw [List.dropWhile_append_of_pos hs]
  cases rest with
  | nil => simp
  | cons c rest => simp [hrest c rfl]

theorem Stops.head?_ne {d : Char} (h : Stops p rest) (hd : p d = true) :
    rest.head? ≠ some d := by
  intro hhead
  rw [h d hhead] at hd
  cases hd

end Runs

/-! ## The first element ends -/

private theorem stops_of_fraction? {cs fraction rest : List Char}
    (h : fraction? cs = some (fraction, rest)) : Stops isDigit rest := by
  unfold fraction? at h
  split at h
  · split at h
    · cases h
      exact stops_dropWhile isDigit _
    · cases h
  · cases h

private theorem ends_remark {c : Char} {rest : List Char}
    (h : c = '#' ∨ c = '/' ∧ rest.head? = some '/') :
    Ends (.remark ((c :: rest).takeWhile (· != '\n'))) ((c :: rest).dropWhile (· != '\n')) := by
  have hc : (c != '\n') = true := by
    rcases h with rfl | ⟨rfl, -⟩
    · decide
    · decide
  have hstop := stops_dropWhile (· != '\n') (c :: rest)
  have htake : (c :: rest).takeWhile (· != '\n') = c :: rest.takeWhile (· != '\n') :=
    List.takeWhile_cons_of_pos hc
  rw [htake]
  refine .remark ?_ ?_ hstop
  · rcases h with h | ⟨h, hrest⟩
    · exact .inl h
    · obtain ⟨rest, rfl⟩ := List.head?_eq_some_iff.mp hrest
      exact .inr ⟨h, by simp⟩
  · intro hmem
    simpa using List.mem_takeWhile_imp hmem

private theorem ends_comment (cs : List Char) :
    Ends (.comment (commentBody cs).1 (commentBody cs).2.1) (commentBody cs).2.2 := by
  rcases not_infix_commentBody cs with ⟨body, rest, h, hbody⟩ | ⟨h, hcs⟩
  · rw [h]
    exact .comment hbody
  · rw [h]
    exact .openComment hcs

private theorem ends_quotation (cs : List Char) :
    Ends (.quotation (quotationBody cs).1 (quotationBody cs).2.1) (quotationBody cs).2.2 := by
  rcases content_quotationBody cs with
    ⟨body, content, rest, h, hc⟩ | ⟨body, backslash, content, h, hc, hend⟩
  · rw [h]
    exact .string hc
  · rw [h]
    exact .openString hc hend

private theorem stops_of_head?_ne {rest : List Char} {p : Char → Bool}
    (h : ∀ d, p d = true → rest.head? ≠ some d) : Stops p rest := by
  intro d hd
  rw [Bool.eq_false_iff]
  exact fun hp => h d hp hd

/-- The first element of a source ends where the rest begins. -/
theorem ends_first (c : Char) (rest : List Char) : Ends (first c rest).1 (first c rest).2 := by
  fun_cases first c rest with
  | case1 h => exact .blank h
  | case2 _ h => exact ends_remark h
  | case3 _ _ h body closed rest' hb =>
    have hends := ends_comment rest.tail
    rwa [hb] at hends
  | case4 _ _ _ h fraction rest' hf =>
    exact .floating (digits_takeWhile h rest) (digits_of_fraction? hf) (stops_of_fraction? hf)
  | case5 _ _ _ h hf => exact .integer (digits_takeWhile h rest) (stops_dropWhile _ _) hf
  | case6 _ _ _ _ h =>
    have hc : continuesWord c = true := by simp [continuesWord, h]
    rw [List.takeWhile_cons_of_pos hc]
    exact .word h (fun d hd => List.mem_takeWhile_imp hd) (stops_dropWhile _ _)
  | case7 _ _ _ _ _ h body closed rest' hb =>
    have hends := ends_quotation rest
    rwa [hb] at hends
  | case8 _ _ _ _ _ _ h => exact .comparing h.1
  | case9 _ hr hcm _ _ _ heq h =>
    refine .sign h ?_ ?_
    · intro hc
      refine stops_of_head?_ne fun d hd => ?_
      rw [beq_iff_eq] at hd
      exact fun hhead => heq ⟨hc, hd ▸ hhead⟩
    · rintro rfl
      refine stops_of_head?_ne fun d hd hhead => ?_
      rw [Bool.or_eq_true, beq_iff_eq, beq_iff_eq] at hd
      rcases hd with rfl | rfl
      · exact hr (.inr ⟨rfl, hhead⟩)
      · exact hcm ⟨rfl, hhead⟩
  | case10 _ _ _ _ _ _ _ _ h => exact .punct h
  | case11 hb hr _ hd hw hq _ hs hp =>
    exact .unknown (unknown_of_classes hb hd hw hq (fun h => hr (.inl h)) hs hp)

/-! ## What ends is the first element -/

section First

variable {c : Char} {cs rest : List Char}

private theorem first_remark (hc : c = '#' ∨ c = '/' ∧ cs.head? = some '/') (hline : '\n' ∉ cs)
    (h : Stops (· != '\n') rest) : first c (cs ++ rest) = (.remark (c :: cs), rest) := by
  have hstart : c = '#' ∨ c = '/' ∧ (cs ++ rest).head? = some '/' := by
    rcases hc with hc | ⟨hc, hcs⟩
    · exact .inl hc
    · obtain ⟨cs, rfl⟩ := List.head?_eq_some_iff.mp hcs
      exact .inr ⟨hc, rfl⟩
  have hall : ∀ d ∈ c :: cs, (d != '\n') = true := by
    intro d hd
    rw [bne_iff_ne]
    rintro rfl
    rcases List.mem_cons.mp hd with rfl | hd
    · rcases hc with hc | ⟨hc, -⟩
      · exact absurd hc (by decide)
      · exact absurd hc (by decide)
    · exact hline hd
  rw [first_of_remark hstart, ← List.cons_append, takeWhile_append_stop hall h,
    dropWhile_append_stop hall h]

private theorem first_integer (hs : Digits (c :: cs)) (h : Stops isDigit rest)
    (hf : fraction? rest = none) : first c (cs ++ rest) = (.number (c :: cs) none, rest) := by
  have hall := (digits_iff.mp hs).2
  have htake := takeWhile_append_stop hall h
  have hdrop := dropWhile_append_stop hall h
  rw [List.cons_append] at htake hdrop
  rw [first_of_integer (hall c List.mem_cons_self) (by rw [hdrop, hf]), htake, hdrop]

private theorem first_floating {fraction : List Char} (hs : Digits (c :: cs))
    (hf : Digits fraction) (h : Stops isDigit rest) :
    first c (cs ++ '.' :: (fraction ++ rest)) = (.number (c :: cs) (some fraction), rest) := by
  have hall := (digits_iff.mp hs).2
  obtain ⟨hne, hall'⟩ := digits_iff.mp hf
  have hpoint : Stops isDigit ('.' :: (fraction ++ rest)) := by
    intro d hd
    cases hd
    decide
  have htake := takeWhile_append_stop hall hpoint
  have hdrop := dropWhile_append_stop hall hpoint
  rw [List.cons_append] at htake hdrop
  have hfraction : fraction? ('.' :: (fraction ++ rest)) = some (fraction, rest) := by
    have htake' := takeWhile_append_stop hall' h
    have hdrop' := dropWhile_append_stop hall' h
    obtain ⟨d, fraction, rfl⟩ := List.exists_cons_of_ne_nil hne
    rw [List.cons_append] at htake' hdrop' ⊢
    have hd : isDigit d = true := hall' d List.mem_cons_self
    rw [fraction?, if_pos ⟨rfl, hd⟩, htake', hdrop']
  rw [first_of_fraction (hall c List.mem_cons_self) (by rw [hdrop, hfraction]), htake]

private theorem first_word (hc : startsWord c = true) (hcs : ∀ d ∈ cs, continuesWord d = true)
    (h : Stops continuesWord rest) : first c (cs ++ rest) = (.word (c :: cs), rest) := by
  have hall : ∀ d ∈ c :: cs, continuesWord d = true := fun d => continuesWord_of_mem hc hcs
  have htake := takeWhile_append_stop hall h
  have hdrop := dropWhile_append_stop hall h
  rw [List.cons_append] at htake hdrop
  rw [first_of_startsWord hc, htake, hdrop]

/-- What the signs of operators are not. -/
private theorem sign_classes (h : isComparing c = true ∨ isArithmetic c = true) :
    Text.isBlank c = false ∧ isDigit c = false ∧ startsWord c = false ∧ c ≠ '#' ∧ c ≠ '"' := by
  simp only [isComparing, isArithmetic, Bool.or_eq_true, beq_iff_eq] at h
  rcases h with (((rfl | rfl) | rfl) | rfl) |
    ((((((rfl | rfl) | rfl) | rfl) | rfl) | rfl) | rfl) | rfl <;> decide

private theorem first_sign (hc : isComparing c = true ∨ isArithmetic c = true)
    (hequals : isComparing c = true → Stops (· == '=') rest)
    (hslash : c = '/' → Stops (fun d => d == '/' || d == '*') rest) :
    first c rest = (.operator c false, rest) := by
  obtain ⟨hblank, hdigit, hword, hdirective, hquote⟩ := sign_classes hc
  have hremark : ¬ (c = '#' ∨ c = '/' ∧ rest.head? = some '/') := by
    rintro (h | ⟨h, hhead⟩)
    · exact hdirective h
    · exact (hslash h).head?_ne (by decide) hhead
  have hcomment : ¬ (c = '/' ∧ rest.head? = some '*') :=
    fun ⟨h, hhead⟩ => (hslash h).head?_ne (by decide) hhead
  have hextended : ¬ (isComparing c = true ∧ rest.head? = some '=') :=
    fun ⟨h, hhead⟩ => (hequals h).head?_ne (by decide) hhead
  simp only [first, hblank, hdigit, hword, hquote, hremark, hcomment, hextended, hc, if_true,
    if_false, Bool.false_eq_true]

private theorem first_punct (hc : isPunct c = true) (rest : List Char) :
    first c rest = (.punct c, rest) := by
  simp only [isPunct, Bool.or_eq_true, beq_iff_eq] at hc
  rcases hc with ((((((rfl | rfl) | rfl) | rfl) | rfl) | rfl) | rfl) | rfl <;> rfl

/-- A character that starts nothing is an element of its own, whatever follows it. -/
private theorem first_unknown (h : Unknown c) (rest : List Char) :
    first c rest = (.unknown c, rest) := by
  have hoperator : ¬ (isComparing c = true ∨ isArithmetic c = true) := fun hc =>
    h.not_sign [c] (List.mem_append_left _ (singleton_mem_operators.mpr hc)) rfl
  have hpunct : ¬ isPunct c = true := fun hc =>
    h.not_sign [c] (List.mem_append_right _ (singleton_mem_punctuators.mpr hc)) rfl
  have hslash : c ≠ '/' := by
    rintro rfl
    exact hoperator (.inr (by decide))
  have hcomparing : ¬ isComparing c = true := fun hc => hoperator (.inl hc)
  have harithmetic : ¬ isArithmetic c = true := fun hc => hoperator (.inr hc)
  simp only [first, h.not_blank, h.not_digit, h.not_word, h.not_quote, h.not_directive, hslash,
    hcomparing, harithmetic, hpunct, false_and, or_self, if_false, Bool.false_eq_true]

end First

/-- An element that ends before the rest of a source is the first element of the source. -/
theorem Ends.first_eq {e : Element} {rest : List Char} (h : Ends e rest) :
    ∃ c cs, e.text = c :: cs ∧ first c (cs ++ rest) = (e, rest) := by
  cases h with
  | @blank c _ hc => exact ⟨c, [], rfl, by simp [first, hc]⟩
  | @remark c body _ hc hline hrest => exact ⟨c, body, rfl, first_remark hc hline hrest⟩
  | @comment body _ hbody =>
    refine ⟨'/', '*' :: (body ++ ['*', '/']), rfl, ?_⟩
    rw [List.cons_append, List.append_assoc, first_comment]
    exact congrArg (fun p => (Element.comment p.1 p.2.1, p.2.2))
      (commentBody_append_close hbody rest)
  | @openComment body hbody =>
    refine ⟨'/', '*' :: body, by simp [Element.text], ?_⟩
    rw [List.append_nil, first_comment, commentBody_of_not_infix hbody]
  | integer hs hrest hf =>
    obtain ⟨c, cs, rfl⟩ := List.exists_cons_of_ne_nil (digits_iff.mp hs).1
    exact ⟨c, cs, rfl, first_integer hs hrest hf⟩
  | floating hs hf hrest =>
    obtain ⟨c, cs, rfl⟩ := List.exists_cons_of_ne_nil (digits_iff.mp hs).1
    have hfirst := first_floating hs hf hrest
    rw [← List.cons_append, ← List.append_assoc] at hfirst
    exact ⟨c, _, rfl, hfirst⟩
  | @word c cs _ hc hcs hrest => exact ⟨c, cs, rfl, first_word hc hcs hrest⟩
  | @string body content _ hbody =>
    refine ⟨'"', body ++ ['"'], rfl, ?_⟩
    rw [List.append_assoc, List.singleton_append, first_quote,
      hbody.quotationBody_append_quote]
  | @openString body content backslash hbody hend =>
    refine ⟨'"', body ++ backslash, by simp [Element.text], ?_⟩
    rw [List.append_nil, first_quote, hbody.quotationBody_append_backslash hend]
  | @comparing c _ hc => exact ⟨c, ['='], rfl, first_of_isComparing hc rest⟩
  | @sign c _ hc hequals hslash => exact ⟨c, [], rfl, first_sign hc hequals hslash⟩
  | @punct c _ hc => exact ⟨c, [], rfl, first_punct hc rest⟩
  | @unknown c _ hc => exact ⟨c, [], rfl, first_unknown hc rest⟩

/-- A source is split behind an element that ends there. -/
theorem Ends.split_append {e : Element} {rest : List Char} (h : Ends e rest) :
    split (e.text ++ rest) = e :: split rest := by
  obtain ⟨c, cs, htext, hfirst⟩ := h.first_eq
  rw [htext, List.cons_append, split, hfirst]

/-- The first of the elements of a source ends before the texts of the others. -/
theorem ends_of_split {cs : List Char} {e : Element} {es : List Element}
    (h : split cs = e :: es) : Ends e (es.flatMap text) ∧ split (es.flatMap text) = es := by
  cases cs with
  | nil =>
    rw [split] at h
    cases h
  | cons c rest =>
    rw [split] at h
    obtain ⟨rfl, rfl⟩ := List.cons.inj h
    rw [flatMap_text_split]
    exact ⟨ends_first c rest, rfl⟩

/-! ## Blanks behind elements -/

/-- Whether an element is a comment or a string that the source ends in. -/
def isOpen : Element → Bool
  | .comment _ closed => !closed
  | .quotation _ closed => !closed
  | _ => false

theorem continuesWord_of_isBlank {b : Char} (hb : Text.isBlank b = true) :
    continuesWord b = false := by
  rw [Bool.eq_false_iff]
  intro hword
  rw [continuesWord, Bool.or_eq_true] at hword
  rcases hword with hword | hdigit
  · rw [isBlank_of_startsWord hword] at hb
    cases hb
  · rw [isBlank_of_isDigit hdigit] at hb
    cases hb

section Blank

variable {b : Char} {before after after' : List Char}

/-- What stops at the end of a text or behind it stops at a blank instead, if it stops there. -/
theorem Stops.before_blank {p : Char → Bool} (h : Stops p (before ++ after)) (hb : p b = false) :
    Stops p (before ++ b :: after') := by
  cases before with
  | nil =>
    intro c hc
    cases hc
    exact hb
  | cons d before => exact h

/-- No fraction goes on over a blank. -/
theorem fraction?_before_blank (hb : Text.isBlank b = true)
    (h : fraction? (before ++ after) = none) : fraction? (before ++ b :: after') = none := by
  have hpoint : b ≠ '.' := by
    rintro rfl
    exact absurd hb (by decide)
  have hdigit : isDigit b = false := by
    have hword := continuesWord_of_isBlank hb
    rw [continuesWord, Bool.or_eq_false_iff] at hword
    exact hword.2
  cases before with
  | nil =>
    cases after' with
    | nil => rfl
    | cons d after' => simp [fraction?, hpoint]
  | cons c before =>
    cases before with
    | nil => simp [fraction?, hdigit]
    | cons d before =>
      have hcd : ¬ (c = '.' ∧ isDigit d = true) := by
        intro hcd
        simp [fraction?, hcd] at h
      simp [fraction?, hcd]

/-- An element still ends where it does if the source changes further on, from a blank on. Only
comments and strings without an end need the end of the source, and only a remark needs its line
feed. -/
theorem Ends.before_blank {e : Element} (h : Ends e (before ++ after))
    (hb : Text.isBlank b = true) (hopen : before ++ after = [] → isOpen e = false)
    (hline : Stops (· != '\n') after → b = '\n') : Ends e (before ++ b :: after') := by
  have hword := continuesWord_of_isBlank hb
  have hdigit : isDigit b = false := by
    rw [continuesWord, Bool.or_eq_false_iff] at hword
    exact hword.2
  have hne {c : Char} (hc : Text.isBlank c = false) : b ≠ c := by
    rintro rfl
    rw [hc] at hb
    cases hb
  generalize hrest : before ++ after = rest at h hopen
  cases h with
  | blank hc => exact .blank hc
  | remark hc hbody hstop =>
    subst hrest
    refine .remark hc hbody ?_
    cases before with
    | nil =>
      intro d hd
      cases hd
      simpa using hline hstop
    | cons d before => exact hstop
  | comment hbody => exact .comment hbody
  | openComment _ => exact absurd (hopen rfl) Bool.noConfusion
  | integer hs hstop hf =>
    subst hrest
    exact .integer hs (hstop.before_blank hdigit) (fraction?_before_blank hb hf)
  | floating hw hf hstop =>
    subst hrest
    exact .floating hw hf (hstop.before_blank hdigit)
  | word hc hcs hstop =>
    subst hrest
    exact .word hc hcs (hstop.before_blank hword)
  | string hbody => exact .string hbody
  | openString _ _ => exact absurd (hopen rfl) Bool.noConfusion
  | comparing hc => exact .comparing hc
  | sign hc hequals hslash =>
    subst hrest
    refine .sign hc (fun h => (hequals h).before_blank ?_) (fun h => (hslash h).before_blank ?_)
    · simpa using hne (c := '=') (by decide)
    · simpa using ⟨hne (c := '/') (by decide), hne (c := '*') (by decide)⟩
  | punct hc => exact .punct hc
  | unknown hc => exact .unknown hc

/-- A source that changes from a blank on has the same elements before it. -/
theorem split_before_blank {cs : List Char} {es es' : List Element} (h : split cs = es ++ es')
    (hb : Text.isBlank b = true) (hopen : es' = [] → ∀ e ∈ es, isOpen e = false)
    (hline : Stops (· != '\n') (es'.flatMap text) → b = '\n') (after : List Char) :
    split (es.flatMap text ++ b :: after) = es ++ .blank b :: split after := by
  induction es generalizing cs with
  | nil => exact (Ends.blank hb).split_append
  | cons e es ih =>
    obtain ⟨hends, hrest⟩ := ends_of_split (h.trans List.cons_append)
    have hsame := ih hrest fun hes' d hd => hopen hes' d (List.mem_cons_of_mem e hd)
    rw [List.flatMap_append] at hends hrest
    have hlast : es.flatMap text ++ es'.flatMap text = [] → isOpen e = false := by
      intro hnil
      rw [hnil, split] at hrest
      exact hopen (List.append_eq_nil_iff.mp hrest.symm).2 e List.mem_cons_self
    rw [List.flatMap_cons, List.append_assoc, (hends.before_blank hb hlast hline).split_append,
      hsame, List.cons_append]

end Blank

end MiniC.Lexical
