import Mathlib.Data.List.DropRight
import Mathlib.Data.List.TakeWhile
import MiniC.Proofs.Text.Piece

/-!
# Source lines

Lines are counted in the characters of a text, while a quoted line is cut from
its bytes. Both are the same lines, because line feeds and the pieces of a text
do not interfere. A quoted line is trimmed of encoded blanks at both ends, and
it keeps every character that is not blank.
-/

namespace MiniC.Text

variable {ps : List Piece}

/-- The line feeds among the characters of some pieces. -/
abbrev newlines (ps : List Piece) : Nat := (ps.map Piece.seen).count '\n'

/-! ## Lines -/

theorem lines_cons_of_newline {p : Piece} (hp : p.seen = '\n') (ps : List Piece) :
    lines (p :: ps) = [] :: lines ps := by
  rw [lines, if_pos hp]

theorem lines_cons_of_ne {p : Piece} (hp : p.seen ≠ '\n') (ps : List Piece) :
    lines (p :: ps) = (lines ps).modifyHead (p :: ·) := by
  rw [lines, if_neg hp]
  cases h : lines ps with
  | nil => exact absurd h (lines_ne_nil ps)
  | cons l ls => rfl

theorem length_lines (ps : List Piece) : (lines ps).length = newlines ps + 1 := by
  induction ps with
  | nil => rfl
  | cons p ps ih =>
    by_cases hp : p.seen = '\n'
    · simp [lines_cons_of_newline hp, ih, newlines, hp]
    · simp [lines_cons_of_ne hp, ih, newlines, hp]

theorem lines_append_of_ne {l : List Piece} (hl : ∀ p ∈ l, p.seen ≠ '\n') (ps : List Piece) :
    lines (l ++ ps) = (lines ps).modifyHead (l ++ ·) := by
  induction l with
  | nil =>
    rw [List.nil_append]
    cases lines ps with
    | nil => rfl
    | cons l ls => rfl
  | cons p l ih =>
    rw [List.cons_append, lines_cons_of_ne (hl p (by simp)), ih fun q hq => hl q (by simp [hq])]
    cases lines ps with
    | nil => rfl
    | cons l ls => rfl

/-- The first line is the start of a text. -/
theorem exists_lines_eq_cons (ps : List Piece) :
    ∃ l ls rest, lines ps = l :: ls ∧ ps = l ++ rest := by
  induction ps with
  | nil => exact ⟨[], [], [], rfl, rfl⟩
  | cons p ps ih =>
    by_cases hp : p.seen = '\n'
    · exact ⟨[], lines ps, p :: ps, lines_cons_of_newline hp ps, rfl⟩
    · obtain ⟨l, ls, rest, hl, hps⟩ := ih
      exact ⟨p :: l, ls, rest, by rw [lines_cons_of_ne hp, hl]; rfl, by rw [hps]; rfl⟩

/-- What stands before a place is earlier lines, up to a last line feed, and the start of the line
of this place. -/
private theorem exists_line_start (before : List Piece) :
    ∃ earlier start, before = earlier ++ start ∧ (∀ p ∈ start, p.seen ≠ '\n') ∧
      (earlier = [] ∨ ∃ rest p, earlier = rest ++ [p] ∧ p.seen = '\n') := by
  induction before using List.reverseRecOn with
  | nil => exact ⟨[], [], rfl, by simp, .inl rfl⟩
  | append_singleton before p ih =>
    by_cases hp : p.seen = '\n'
    · exact ⟨before ++ [p], [], by simp, by simp, .inr ⟨before, p, rfl, hp⟩⟩
    · obtain ⟨earlier, start, rfl, hstart, hearlier⟩ := ih
      refine ⟨earlier, start ++ [p], by simp, ?_, hearlier⟩
      intro q hq
      rcases List.mem_append.mp hq with hq | hq
      · exact hstart q hq
      · rwa [List.mem_singleton.mp hq]

/-- A character that is no line feed stands on the line that the line feeds before it count to. -/
theorem getElem?_lines {before after : List Piece} {q : Piece} (hq : q.seen ≠ '\n') :
    ∃ earlier start following later,
      (lines (before ++ q :: after))[newlines before]? = some (start ++ q :: following) ∧
        before = earlier ++ start ∧ after = following ++ later := by
  obtain ⟨earlier, start, rfl, hstart, hearlier⟩ := exists_line_start before
  obtain ⟨following, ls, later, hafter, rfl⟩ := exists_lines_eq_cons after
  have hline : lines (start ++ q :: (following ++ later)) = (start ++ q :: following) :: ls := by
    rw [lines_append_of_ne hstart, lines_cons_of_ne hq, hafter]
    rfl
  have hnone : newlines start = 0 := by
    rw [newlines, List.count_eq_zero]
    simpa using hstart
  refine ⟨earlier, start, following, later, ?_, rfl, rfl⟩
  rcases hearlier with rfl | ⟨rest, p, rfl, hp⟩
  · rw [List.nil_append, hline, hnone]
    rfl
  · have hcount : newlines (rest ++ [p] ++ start) = (lines rest).length := by
      rw [length_lines]
      simp only [newlines, List.map_append, List.count_append] at hnone ⊢
      simp [hnone, hp]
    rw [hcount, List.append_assoc, List.append_assoc, List.singleton_append,
      lines_append_newline hp, hline, List.getElem?_append_right (Nat.le_refl _), Nat.sub_self]
    rfl

private theorem splitOn_append_of_not_mem {b : UInt8} {bs : Bytes} (h : b ∉ bs) (rest : Bytes) :
    (bs ++ rest).splitOn b = (rest.splitOn b).modifyHead (bs ++ ·) := by
  induction bs with
  | nil =>
    rw [List.nil_append]
    cases rest.splitOn b with
    | nil => rfl
    | cons l ls => rfl
  | cons a bs ih =>
    rw [List.mem_cons, not_or] at h
    have ha : (a == b) = false := by simpa using fun hab => h.1 hab.symm
    rw [List.cons_append, List.splitOn_cons_eq_if_modifyHead, ha, ih h.2]
    cases rest.splitOn b with
    | nil => rfl
    | cons l ls => rfl

/-- The bytes of the lines are what stands between the line feeds in the bytes. -/
theorem map_bytes_lines (h : ∀ p ∈ ps, p.WellFormed) :
    (lines ps).map (List.flatMap Piece.bytes) = (ps.flatMap Piece.bytes).splitOn lineFeed := by
  induction ps with
  | nil => rfl
  | cons p ps ih =>
    have hp := h p (by simp)
    have ih := ih fun q hq => h q (by simp [hq])
    rw [List.flatMap_cons]
    by_cases hn : p.seen = '\n'
    · rw [lines_cons_of_newline hn, hp.bytes_of_newline hn, List.map_cons, ih]
      have := List.splitOn_append_cons_self (a := lineFeed) [] (ps.flatMap Piece.bytes)
      simpa using this.symm
    · rw [lines_cons_of_ne hn, splitOn_append_of_not_mem (hp.lineFeed_not_mem hn), ← ih]
      cases lines ps with
      | nil => rfl
      | cons l ls => rfl

/-- The lines of a source, in its bytes. -/
theorem map_bytes_lines_pieces (source : Bytes) :
    (lines (pieces source)).map (List.flatMap Piece.bytes) = source.splitOn lineFeed := by
  rw [map_bytes_lines fun p hp => wellFormed_of_mem_pieces hp, flatMap_bytes_pieces]

/-! ## Trimming -/

/-- A text without the encoded blanks at its ends. -/
structure Trimmed (raw snippet : Bytes) : Prop where
  /-- Only encoded blanks are cut off. -/
  ends : ∃ left right : List Char, (∀ c ∈ left, isBlank c) ∧ (∀ c ∈ right, isBlank c) ∧
    raw = left.flatMap encodeChar ++ snippet ++ right.flatMap encodeChar
  /-- None is left at the front. -/
  front : ∀ c, isBlank c → ¬ encodeChar c <+: snippet
  /-- None is left at the back. -/
  back : ∀ c, isBlank c → ¬ encodeChar c <:+ snippet

/-- Trimming cuts off blank pieces and leaves none at the ends. -/
theorem trim_spec (ps : List Piece) :
    ∃ left right, ps = left ++ trim ps ++ right ∧ (∀ p ∈ left, p.isBlank) ∧
      (∀ p ∈ right, p.isBlank) ∧ (∀ p ∈ (trim ps).head?, p.isBlank = false) ∧
        ∀ p ∈ (trim ps).getLast?, p.isBlank = false := by
  have htrim : trim ps = (ps.dropWhile Piece.isBlank).rdropWhile Piece.isBlank := rfl
  refine ⟨ps.takeWhile Piece.isBlank, (ps.dropWhile Piece.isBlank).rtakeWhile Piece.isBlank,
    ?_, ?_, ?_, ?_, ?_⟩
  · rw [List.append_assoc, htrim, List.rdropWhile_append_rtakeWhile,
      List.takeWhile_append_dropWhile]
  · exact fun p hp => List.mem_takeWhile_imp hp
  · exact fun p hp => List.mem_rtakeWhile_imp hp
  · intro p hp
    obtain ⟨rest, hrest⟩ := List.head?_eq_some_iff.mp hp
    obtain ⟨more, hmore⟩ := List.rdropWhile_prefix Piece.isBlank (l := ps.dropWhile Piece.isBlank)
    have hnot := List.head?_dropWhile_not Piece.isBlank ps
    rw [← hmore, ← htrim, hrest] at hnot
    exact hnot
  · intro p hp
    obtain ⟨hne, rfl⟩ := List.mem_getLast?_eq_getLast hp
    rw [Bool.eq_false_iff]
    exact List.rdropWhile_last_not Piece.isBlank (ps.dropWhile Piece.isBlank) hne

theorem mem_of_mem_trim {p : Piece} (h : p ∈ trim ps) : p ∈ ps := by
  obtain ⟨left, right, hps, -⟩ := trim_spec ps
  rw [hps]
  simp [h]

/-- A piece that is not blank is kept. -/
theorem trim_ne_nil {q : Piece} (hq : q ∈ ps) (hb : q.isBlank = false) : trim ps ≠ [] := by
  obtain ⟨left, right, hps, hleft, hright, -, -⟩ := trim_spec ps
  intro hnil
  rw [hnil, List.append_nil] at hps
  rw [hps] at hq
  rcases List.mem_append.mp hq with hq | hq
  · exact absurd (hleft q hq) (by simp [hb])
  · exact absurd (hright q hq) (by simp [hb])

theorem Piece.WellFormed.bytes_of_isBlank {p : Piece} (h : p.WellFormed) (hb : p.isBlank = true) :
    p.bytes = encodeChar p.seen := by
  cases p with
  | char c encoding => exact h
  | stray b =>
    have hreplacement : Text.isBlank '\uFFFD' = false := by decide
    exact absurd hb (by simp [Piece.isBlank, Piece.seen, hreplacement])

/-- Blank pieces are encoded blanks. -/
private theorem flatMap_bytes_of_blank (hw : ∀ p ∈ ps, p.WellFormed) (hb : ∀ p ∈ ps, p.isBlank) :
    ps.flatMap Piece.bytes = (ps.map Piece.seen).flatMap encodeChar := by
  rw [List.flatMap_map]
  exact List.flatMap_congr fun p hp => (hw p hp).bytes_of_isBlank (hb p hp)

section Ends

variable {source : Bytes} {earlier middle later : List Piece} {c : Char}

/-- The cut from a part of the pieces on starts with the first of them. -/
private theorem not_prefix_of_head (h : pieces source = earlier ++ (middle ++ later))
    (hne : middle ≠ []) (hhead : ∀ p ∈ middle.head?, p.isBlank = false) (hc : isBlank c) :
    ¬ encodeChar c <+: middle.flatMap Piece.bytes := by
  rintro ⟨rest, hrest⟩
  have hcut := pieces_append_right h
  rw [List.flatMap_append, ← hrest, List.append_assoc, pieces_encodeChar_append] at hcut
  obtain ⟨p, middle, rfl⟩ := List.exists_cons_of_ne_nil hne
  obtain rfl := (List.cons.inj hcut).1
  have hblank := hhead (.char c (encodeChar c)) rfl
  exact absurd hblank (by simpa [Piece.isBlank, Piece.seen] using hc)

/-- An encoding starts at a border of the cut, so at the end of a part of the pieces it is the
last of them. -/
private theorem not_suffix_of_last (h : pieces source = earlier ++ (middle ++ later))
    (hne : middle ≠ []) (hlast : ∀ p ∈ middle.getLast?, p.isBlank = false) (hc : isBlank c) :
    ¬ encodeChar c <:+ middle.flatMap Piece.bytes := by
  rintro ⟨rest, hrest⟩
  have hsource : source = (earlier.flatMap Piece.bytes ++ rest) ++
      (encodeChar c ++ later.flatMap Piece.bytes) := by
    rw [← flatMap_bytes_pieces source, h]
    simp [← hrest]
  have hlater : pieces (later.flatMap Piece.bytes) = later :=
    pieces_append_right (h.trans (List.append_assoc _ _ _).symm)
  obtain ⟨b, bs, hb, htail⟩ := exists_encodeChar_eq_cons c
  have hborder := pieces_append_of_not_tail htail (earlier.flatMap Piece.bytes ++ rest)
    (bs ++ later.flatMap Piece.bytes)
  rw [← List.cons_append, ← hb, ← hsource, pieces_encodeChar_append, hlater, h] at hborder
  obtain ⟨middle, p, rfl⟩ := (List.eq_nil_or_concat _).resolve_left hne
  have hwhole : ((earlier ++ middle) ++ [p]) ++ later =
      (pieces (earlier.flatMap Piece.bytes ++ rest) ++ [.char c (encodeChar c)]) ++ later := by
    simpa using hborder
  have hp := (List.append_inj' (List.append_cancel_right hwhole) rfl).2
  obtain rfl := (List.cons.inj hp).1
  have hblank := hlast (.char c (encodeChar c)) (by simp)
  exact absurd hblank (by simpa [Piece.isBlank, Piece.seen] using hc)

end Ends

/-- The trimmed part of a line of a source is the line without encoded blanks at its ends. -/
theorem trimmed_trim {source : Bytes} {earlier l later : List Piece}
    (h : pieces source = earlier ++ (l ++ later)) (hne : trim l ≠ []) :
    Trimmed (l.flatMap Piece.bytes) ((trim l).flatMap Piece.bytes) := by
  have hwell : ∀ p ∈ l, p.WellFormed := by
    intro p hp
    have hmem : p ∈ pieces source := by
      rw [h]
      exact List.mem_append_right _ (List.mem_append_left _ hp)
    exact wellFormed_of_mem_pieces hmem
  obtain ⟨left, right, hl, hleft, hright, hhead, hlast⟩ := trim_spec l
  generalize trim l = middle at *
  subst hl
  have hmiddle : pieces source = (earlier ++ left) ++ (middle ++ (right ++ later)) := by
    rw [h]
    simp
  refine ⟨⟨left.map Piece.seen, right.map Piece.seen, ?_, ?_, ?_⟩,
    fun c hc => not_prefix_of_head hmiddle hne hhead hc,
    fun c hc => not_suffix_of_last hmiddle hne hlast hc⟩
  · simpa [Piece.isBlank] using hleft
  · simpa [Piece.isBlank] using hright
  · rw [List.flatMap_append, List.flatMap_append,
      flatMap_bytes_of_blank (fun p hp => hwell p (by simp [hp])) hleft,
      flatMap_bytes_of_blank (fun p hp => hwell p (by simp [hp])) hright]

/-- The snippet of the line on which a character stands that is not blank: a raw line of the
source, trimmed of encoded blanks, and not empty. -/
theorem snippet_spec {source : Bytes} {before after : List Piece} {q : Piece}
    (h : pieces source = before ++ q :: after) (hq : q.isBlank = false) :
    ∃ raw, (source.splitOn lineFeed)[newlines before]? = some raw ∧
      Trimmed raw (snippet source (1 + newlines before)) ∧
        snippet source (1 + newlines before) ≠ [] := by
  have hseen : q.seen ≠ '\n' := by
    intro hn
    have hblank : Text.isBlank '\n' = true := by decide
    simp [Piece.isBlank, hn, hblank] at hq
  obtain ⟨earlier, start, following, later, hline, rfl, rfl⟩ :=
    @getElem?_lines before after q hseen
  rw [← h] at hline
  have htrim : trim (start ++ q :: following) ≠ [] := trim_ne_nil (by simp) hq
  have hsnippet : snippet source (1 + newlines (earlier ++ start)) =
      (trim (start ++ q :: following)).flatMap Piece.bytes := by
    have hindex : ((1 : Int) + newlines (earlier ++ start) - 1).toNat =
        newlines (earlier ++ start) := by omega
    rw [snippet, if_pos (by omega), hindex, hline]
  have hpieces : pieces source = earlier ++ ((start ++ q :: following) ++ later) := by
    simpa using h
  refine ⟨(start ++ q :: following).flatMap Piece.bytes, ?_, ?_, ?_⟩
  · rw [← map_bytes_lines_pieces, List.getElem?_map, hline]
    rfl
  · rw [hsnippet]
    exact trimmed_trim hpieces htrim
  · obtain ⟨p, rest, hp⟩ := List.exists_cons_of_ne_nil htrim
    have hkept : p ∈ start ++ q :: following := mem_of_mem_trim (by simp [hp])
    have hmem : p ∈ pieces source := by
      rw [hpieces]
      exact List.mem_append_right _ (List.mem_append_left _ hkept)
    have hbytes := (wellFormed_of_mem_pieces hmem).bytes_ne_nil
    rw [hsnippet, hp, List.flatMap_cons]
    exact List.append_ne_nil_of_left_ne_nil hbytes _

end MiniC.Text
