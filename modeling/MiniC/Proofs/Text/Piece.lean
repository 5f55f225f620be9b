import MiniC.Text.Blank

/-!
# Well-formed pieces

The pieces of a text are well-formed: the bytes of a character piece are those
that encode the character, and a stray byte is none of the bytes that stand for
a character alone. So a line feed among the bytes is a line feed among the
characters, and the cut can be taken up again behind any piece.
-/

namespace MiniC.Text

/-- The bytes of a character are its encoding, and a stray byte is not below the bytes that start
longer encodings. -/
def Piece.WellFormed : Piece → Prop
  | .char c encoding => encoding = encodeChar c
  | .stray b => 0x80 ≤ b.toNat

private theorem scalar?_eq_some {least n : Nat} {x : Char} (h : scalar? least n = some x) :
    least ≤ n ∧ x.toNat = n := by
  unfold scalar? at h
  split at h
  · rename_i hn
    cases h
    exact ⟨hn.1, by rw [Char.ofNat, dif_pos hn.2]; rfl⟩
  · cases h

private theorem ofNat_eq {a : UInt8} {n : Nat} (h : n = a.toNat) : UInt8.ofNat n = a := by
  rw [h, UInt8.ofNat_toNat]

theorem encodeChar_of_one? {a : UInt8} {x : Char} (h : one? a = some x) : [a] = encodeChar x := by
  unfold one? at h
  split at h
  · rename_i ha
    obtain ⟨-, hx⟩ := scalar?_eq_some h
    simp [encodeChar, hx, ha]
  · cases h

theorem encodeChar_of_two? {a b : UInt8} {x : Char} (h : two? a b = some x) :
    [a, b] = encodeChar x := by
  unfold two? isTail at h
  split at h
  · rename_i hab
    obtain ⟨hl, hx⟩ := scalar?_eq_some h
    simp only [Bool.and_eq_true, decide_eq_true_eq] at hab
    rw [encodeChar, hx, if_neg (by omega), if_pos (by omega), ofNat_eq (a := a) (by omega),
      ofNat_eq (a := b) (by omega)]
  · cases h

theorem encodeChar_of_three? {a b c : UInt8} {x : Char} (h : three? a b c = some x) :
    [a, b, c] = encodeChar x := by
  unfold three? isTail at h
  split at h
  · rename_i habc
    obtain ⟨hl, hx⟩ := scalar?_eq_some h
    simp only [Bool.and_eq_true, decide_eq_true_eq] at habc
    rw [encodeChar, hx, if_neg (by omega), if_neg (by omega), if_pos (by omega),
      ofNat_eq (a := a) (by omega), ofNat_eq (a := b) (by omega), ofNat_eq (a := c) (by omega)]
  · cases h

theorem encodeChar_of_four? {a b c d : UInt8} {x : Char} (h : four? a b c d = some x) :
    [a, b, c, d] = encodeChar x := by
  unfold four? isTail at h
  split at h
  · rename_i habcd
    obtain ⟨hl, hx⟩ := scalar?_eq_some h
    simp only [Bool.and_eq_true, decide_eq_true_eq] at habcd
    rw [encodeChar, hx, if_neg (by omega), if_neg (by omega), if_neg (by omega),
      ofNat_eq (a := a) (by omega), ofNat_eq (a := b) (by omega), ofNat_eq (a := c) (by omega),
      ofNat_eq (a := d) (by omega)]
  · cases h

theorem le_of_one?_eq_none {a : UInt8} (h : one? a = none) : 0x80 ≤ a.toNat := by
  refine Nat.le_of_not_lt fun ha => ?_
  have hvalid : a.toNat.isValidChar := .inl (by omega)
  simp [one?, scalar?, ha, hvalid] at h

theorem wellFormed_of_mem_pieces {bs : Bytes} {p : Piece} (h : p ∈ pieces bs) : p.WellFormed := by
  fun_induction pieces bs with
  | case1 => cases h
  | case2 a s x h₁ ih =>
    rcases List.mem_cons.mp h with rfl | h
    · exact encodeChar_of_one? h₁
    · exact ih h
  | case3 a h₁ =>
    rw [List.mem_singleton.mp h]
    exact le_of_one?_eq_none h₁
  | case4 a h₁ b s x h₂ ih =>
    rcases List.mem_cons.mp h with rfl | h
    · exact encodeChar_of_two? h₂
    · exact ih h
  | case5 a h₁ b h₂ ih =>
    rcases List.mem_cons.mp h with rfl | h
    · exact le_of_one?_eq_none h₁
    · exact ih h
  | case6 a h₁ b h₂ c s x h₃ ih =>
    rcases List.mem_cons.mp h with rfl | h
    · exact encodeChar_of_three? h₃
    · exact ih h
  | case7 a h₁ b h₂ c h₃ ih =>
    rcases List.mem_cons.mp h with rfl | h
    · exact le_of_one?_eq_none h₁
    · exact ih h
  | case8 a h₁ b h₂ c h₃ d s x h₄ ih =>
    rcases List.mem_cons.mp h with rfl | h
    · exact encodeChar_of_four? h₄
    · exact ih h
  | case9 a h₁ b h₂ c h₃ d s h₄ ih =>
    rcases List.mem_cons.mp h with rfl | h
    · exact le_of_one?_eq_none h₁
    · exact ih h

/-- Behind the first piece, the rest of the text is cut as if it stood alone. -/
theorem pieces_tail {bs : Bytes} {p : Piece} {ps : List Piece} (h : pieces bs = p :: ps) :
    pieces (ps.flatMap Piece.bytes) = ps := by
  have hrest : ∀ s, pieces s = ps → pieces (ps.flatMap Piece.bytes) = ps := by
    rintro s rfl
    rw [flatMap_bytes_pieces]
  revert h
  fun_cases pieces bs with
  | case1 => exact fun h => by cases h
  | case3 => exact fun h => hrest [] (List.cons.inj h).2
  | _ => exact fun h => hrest _ (List.cons.inj h).2

/-- A text is cut behind any of its pieces as if the rest of it stood alone. -/
theorem pieces_append_right {bs : Bytes} {ps qs : List Piece} (h : pieces bs = ps ++ qs) :
    pieces (qs.flatMap Piece.bytes) = qs := by
  induction ps generalizing bs with
  | nil =>
    rw [List.nil_append] at h
    rw [← h, flatMap_bytes_pieces]
  | cons p ps ih => exact ih (pieces_tail h)

/-- A byte that starts no encoded character in front of the given bytes. -/
structure Strays (a : UInt8) (s : Bytes) : Prop where
  one : one? a = none
  two : ∀ b r, s = b :: r → two? a b = none
  three : ∀ b c r, s = b :: c :: r → three? a b c = none
  four : ∀ b c d r, s = b :: c :: d :: r → four? a b c d = none

theorem strays_of_pieces {a b : UInt8} {s : Bytes} {ps : List Piece}
    (h : pieces (a :: s) = .stray b :: ps) : Strays a s := by
  generalize hs : a :: s = bs at h
  revert h
  fun_cases pieces bs with
  | case1 => cases hs
  | case3 c h₁ =>
    cases hs
    exact fun _ => ⟨h₁, nofun, nofun, nofun⟩
  | case5 c h₁ d h₂ =>
    cases hs
    refine fun _ => ⟨h₁, ?_, nofun, nofun⟩
    rintro _ _ ⟨⟩
    exact h₂
  | case7 c h₁ d h₂ e h₃ =>
    cases hs
    refine fun _ => ⟨h₁, ?_, ?_, nofun⟩
    · rintro _ _ ⟨⟩
      exact h₂
    · rintro _ _ _ ⟨⟩
      exact h₃
  | case9 c h₁ d h₂ e h₃ f s h₄ =>
    cases hs
    refine fun _ => ⟨h₁, ?_, ?_, ?_⟩
    · rintro _ _ ⟨⟩
      exact h₂
    · rintro _ _ _ ⟨⟩
      exact h₃
    · rintro _ _ _ _ ⟨⟩
      exact h₄
  | _ => exact nofun

theorem Strays.of_append {a : UInt8} {s t : Bytes} (h : Strays a (s ++ t)) : Strays a s where
  one := h.one
  two b r hs := h.two b (r ++ t) (by rw [hs]; rfl)
  three b c r hs := h.three b c (r ++ t) (by rw [hs]; rfl)
  four b c d r hs := h.four b c d (r ++ t) (by rw [hs]; rfl)

/-- A text that breaks off behind some piece has the pieces up to there. -/
theorem pieces_append_left {bs : Bytes} {ps qs : List Piece} (h : pieces bs = ps ++ qs) :
    pieces (ps.flatMap Piece.bytes) = ps := by
  induction ps generalizing bs with
  | nil => rfl
  | cons p ps ih =>
    have hps : pieces (ps.flatMap Piece.bytes) = ps := ih (pieces_tail h)
    have hbs := flatMap_bytes_pieces bs
    rw [h] at hbs
    have hmem : p ∈ pieces bs := by
      rw [h]
      exact List.mem_cons_self
    have hp : p.WellFormed := wellFormed_of_mem_pieces hmem
    cases p with
    | char c encoding =>
      obtain rfl : encoding = encodeChar c := hp
      rw [List.flatMap_cons, Piece.bytes, pieces_encodeChar_append, hps]
    | stray b =>
      rw [List.cons_append, List.flatMap_cons, List.flatMap_append, Piece.bytes,
        List.singleton_append] at hbs
      rw [← hbs] at h
      have hstrays : Strays b (ps.flatMap Piece.bytes) := (strays_of_pieces h).of_append
      rw [List.flatMap_cons, Piece.bytes, List.singleton_append,
        pieces_stray hstrays.one hstrays.two hstrays.three hstrays.four, hps]
theorem toNat_lt_max (c : Char) : c.toNat < 0x110000 := by
  have hc : c.toNat.isValidChar := c.valid
  simp only [Nat.isValidChar] at hc
  omega

/-- An encoded character starts with a byte that continues no encoding. -/
theorem exists_encodeChar_eq_cons (c : Char) :
    ∃ b bs, encodeChar c = b :: bs ∧ isTail b = false := by
  have hmax := toNat_lt_max c
  have hlead {n : Nat} (hn : n < 0x80 ∨ 0xC0 ≤ n ∧ n < 0x100) :
      isTail (UInt8.ofNat n) = false := by
    rw [isTail, UInt8.toNat_ofNat', Nat.mod_eq_of_lt (by omega), Bool.and_eq_false_iff,
      decide_eq_false_iff_not, decide_eq_false_iff_not]
    omega
  unfold encodeChar
  dsimp only
  split
  · exact ⟨_, _, rfl, hlead (by omega)⟩
  · split
    · exact ⟨_, _, rfl, hlead (by omega)⟩
    · split
      · exact ⟨_, _, rfl, hlead (by omega)⟩
      · exact ⟨_, _, rfl, hlead (by omega)⟩

/-! ## Encoded texts -/

theorem encode_ofList (cs : List Char) : encode (String.ofList cs) = cs.flatMap encodeChar := by
  rw [encode, String.toList_ofList]

theorem encode_append (s t : String) : encode (s ++ t) = encode s ++ encode t := by
  rw [encode, String.toList_append, List.flatMap_append]
  rfl

private theorem toNat_ofNat_of_lt {n : Nat} (h : n < 0x100) : (UInt8.ofNat n).toNat = n := by
  rw [UInt8.toNat_ofNat', Nat.mod_eq_of_lt h]

/-- A byte that stands for a character alone is part of no longer encoding. -/
theorem toNat_eq_of_mem_encodeChar {b : UInt8} {c : Char} (h : b ∈ encodeChar c)
    (hb : b.toNat < 0x80) : c.toNat = b.toNat := by
  have hmax := toNat_lt_max c
  have hlong {n : Nat} (hl : 0x80 ≤ n) (hu : n < 0x100) : b ≠ UInt8.ofNat n := by
    rintro rfl
    rw [toNat_ofNat_of_lt hu] at hb
    omega
  unfold encodeChar at h
  dsimp only at h
  split at h
  · rename_i h₁
    rw [List.mem_singleton.mp h, toNat_ofNat_of_lt (by omega)]
  · rename_i h₁
    split at h
    · simp only [List.mem_cons, List.not_mem_nil, or_false] at h
      rcases h with h | h
      · exact absurd h (hlong (by omega) (by omega))
      · exact absurd h (hlong (by omega) (by omega))
    · split at h
      · simp only [List.mem_cons, List.not_mem_nil, or_false] at h
        rcases h with h | h | h
        · exact absurd h (hlong (by omega) (by omega))
        · exact absurd h (hlong (by omega) (by omega))
        · exact absurd h (hlong (by omega) (by omega))
      · simp only [List.mem_cons, List.not_mem_nil, or_false] at h
        rcases h with h | h | h | h
        · exact absurd h (hlong (by omega) (by omega))
        · exact absurd h (hlong (by omega) (by omega))
        · exact absurd h (hlong (by omega) (by omega))
        · exact absurd h (hlong (by omega) (by omega))

/-- The byte of a character that one byte encodes is found in its own encoding only. -/
theorem eq_of_mem_encodeChar {b : UInt8} {c d : Char} (hd : encodeChar d = [b])
    (h : b ∈ encodeChar c) : c = d := by
  have hb : b.toNat < 0x80 := by
    have hmax := toNat_lt_max d
    unfold encodeChar at hd
    dsimp only at hd
    split at hd
    · rename_i h₁
      rw [← (List.cons.inj hd).1, toNat_ofNat_of_lt (by omega)]
      exact h₁
    · split at hd
      · cases hd
      · split at hd
        · cases hd
        · cases hd
  have hself : b ∈ encodeChar d := hd ▸ List.mem_singleton_self b
  have hcd : c.toNat = d.toNat :=
    (toNat_eq_of_mem_encodeChar h hb).trans (toNat_eq_of_mem_encodeChar hself hb).symm
  rw [← Char.ofNat_toNat c, hcd, Char.ofNat_toNat]

/-! ## Line feeds -/

/-- The byte of a line feed. -/
def lineFeed : UInt8 := 0x0A

theorem eq_newline_of_lineFeed_mem {c : Char} (h : lineFeed ∈ encodeChar c) : c = '\n' :=
  eq_of_mem_encodeChar (d := '\n') rfl h

namespace Piece.WellFormed

variable {p : Piece}

theorem bytes_ne_nil (h : p.WellFormed) : p.bytes ≠ [] := by
  cases p with
  | char c encoding =>
    obtain ⟨b, bs, hb, -⟩ := exists_encodeChar_eq_cons c
    rw [bytes, h, hb]
    exact List.cons_ne_nil b bs
  | stray b => exact List.cons_ne_nil b []

theorem bytes_of_newline (h : p.WellFormed) (hp : p.seen = '\n') : p.bytes = [lineFeed] := by
  cases p with
  | char c encoding =>
    rw [bytes, h, show c = '\n' from hp]
    rfl
  | stray b => simp [seen] at hp

theorem lineFeed_not_mem (h : p.WellFormed) (hp : p.seen ≠ '\n') : lineFeed ∉ p.bytes := by
  intro hmem
  cases p with
  | char c encoding =>
    rw [bytes, h] at hmem
    exact hp (eq_newline_of_lineFeed_mem hmem)
  | stray b =>
    rw [bytes, List.mem_singleton] at hmem
    have hb : 0x80 ≤ b.toNat := h
    rw [← hmem] at hb
    exact absurd hb (by decide)

theorem count_lineFeed (h : p.WellFormed) :
    p.bytes.count lineFeed = if p.seen = '\n' then 1 else 0 := by
  split
  · rename_i hp
    rw [h.bytes_of_newline hp, List.count_singleton_self]
  · rename_i hp
    exact List.count_eq_zero.mpr (h.lineFeed_not_mem hp)

end Piece.WellFormed

/-- There are as many line feeds among the bytes of a text as among its characters. -/
theorem count_newline_chars (bs : Bytes) : (chars bs).count '\n' = bs.count lineFeed := by
  have hpieces : ∀ ps : List Piece, (∀ p ∈ ps, p.WellFormed) →
      (ps.map Piece.seen).count '\n' = (ps.flatMap Piece.bytes).count lineFeed := by
    intro ps hps
    induction ps with
    | nil => rfl
    | cons p ps ih =>
      obtain ⟨hp, hps⟩ := List.forall_mem_cons.mp hps
      rw [List.map_cons, List.count_cons, List.flatMap_cons, List.count_append, ih hps,
        hp.count_lineFeed, Nat.add_comm]
      simp only [beq_iff_eq]
  rw [chars, hpieces _ fun p => wellFormed_of_mem_pieces, flatMap_bytes_pieces]

/-- A line feed parts the characters before it from those behind it. -/
theorem chars_append_lineFeed (as bs : Bytes) :
    chars (as ++ lineFeed :: bs) = chars as ++ '\n' :: chars bs := by
  have hlineFeed : one? lineFeed = some '\n' := rfl
  rw [chars, pieces_append_of_not_tail (by decide), pieces_one bs hlineFeed, List.map_append,
    List.map_cons]
  rfl

end MiniC.Text
