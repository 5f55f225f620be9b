/-!
# Byte texts and their pieces

A text arrives as a list of bytes and need not be well-formed UTF-8. It is cut
from the left into pieces: each piece is either the encoding of one character
or a single stray byte that starts no encoding. Nothing is lost by the cut, so
positions in the characters that a reader sees and positions in the raw bytes
can be compared piece by piece. What was encoded is read back as it was.
-/

namespace MiniC.Text

/-- A text as it is stored: any list of bytes. -/
abbrev Bytes := List UInt8

/-- The bytes of a character: its code point in groups of six bits, behind a first byte
that tells how many groups there are. -/
def encodeChar (c : Char) : Bytes :=
  let n := c.toNat
  if n < 0x80 then [UInt8.ofNat n]
  else if n < 0x800 then [UInt8.ofNat (0xC0 + n / 64), UInt8.ofNat (0x80 + n % 64)]
  else if n < 0x10000 then
    [UInt8.ofNat (0xE0 + n / 4096), UInt8.ofNat (0x80 + n / 64 % 64), UInt8.ofNat (0x80 + n % 64)]
  else
    [UInt8.ofNat (0xF0 + n / 262144), UInt8.ofNat (0x80 + n / 4096 % 64),
      UInt8.ofNat (0x80 + n / 64 % 64), UInt8.ofNat (0x80 + n % 64)]

/-- The bytes of a character text. -/
def encode (s : String) : Bytes := s.toList.flatMap encodeChar

/-- A character text can stand wherever bytes are wanted. -/
instance : Coe String Bytes := ⟨encode⟩

/-- One piece of a byte text. -/
inductive Piece where
  /-- A character, with the bytes that encode it. -/
  | char (c : Char) (encoding : Bytes)
  /-- A byte that starts no encoded character. -/
  | stray (b : UInt8)
  deriving DecidableEq, Repr

/-- The bytes that a piece covers. -/
def Piece.bytes : Piece → Bytes
  | .char _ encoding => encoding
  | .stray b => [b]

/-- The character that a reader sees: a stray byte shows as the replacement character. -/
def Piece.seen : Piece → Char
  | .char c _ => c
  | .stray _ => '\uFFFD'

/-- The character with code point `n`, unless `n` is below the least code point that
needs so many bytes, is a surrogate, or exceeds the last code point. -/
def scalar? (least n : Nat) : Option Char :=
  if least ≤ n ∧ n.isValidChar then some (Char.ofNat n) else none

/-- Whether a byte continues the encoding of a character. -/
def isTail (b : UInt8) : Bool := 0x80 ≤ b.toNat && b.toNat < 0xC0

/-- The character encoded by one byte. -/
def one? (a : UInt8) : Option Char :=
  if a.toNat < 0x80 then scalar? 0 a.toNat else none

/-- The character encoded by two bytes. -/
def two? (a b : UInt8) : Option Char :=
  if 0xC0 ≤ a.toNat ∧ a.toNat < 0xE0 ∧ isTail b then
    scalar? 0x80 (a.toNat % 32 * 64 + b.toNat % 64)
  else none

/-- The character encoded by three bytes. -/
def three? (a b c : UInt8) : Option Char :=
  if 0xE0 ≤ a.toNat ∧ a.toNat < 0xF0 ∧ isTail b ∧ isTail c then
    scalar? 0x800 ((a.toNat % 16 * 64 + b.toNat % 64) * 64 + c.toNat % 64)
  else none

/-- The character encoded by four bytes. -/
def four? (a b c d : UInt8) : Option Char :=
  if 0xF0 ≤ a.toNat ∧ a.toNat < 0xF8 ∧ isTail b ∧ isTail c ∧ isTail d then
    scalar? 0x10000
      (((a.toNat % 8 * 64 + b.toNat % 64) * 64 + c.toNat % 64) * 64 + d.toNat % 64)
  else none

/-- Cut a byte text into its pieces, from the left. -/
def pieces : Bytes → List Piece
  | [] => []
  | a :: s₁ =>
    match one? a with
    | some x => .char x [a] :: pieces s₁
    | none =>
      match s₁ with
      | [] => [.stray a]
      | b :: s₂ =>
        match two? a b with
        | some x => .char x [a, b] :: pieces s₂
        | none =>
          match s₂ with
          | [] => .stray a :: pieces [b]
          | c :: s₃ =>
            match three? a b c with
            | some x => .char x [a, b, c] :: pieces s₃
            | none =>
              match s₃ with
              | [] => .stray a :: pieces [b, c]
              | d :: s₄ =>
                match four? a b c d with
                | some x => .char x [a, b, c, d] :: pieces s₄
                | none => .stray a :: pieces (b :: c :: d :: s₄)

/-- Cutting loses nothing: the pieces cover the text, in order. -/
theorem flatMap_bytes_pieces (bs : Bytes) : (pieces bs).flatMap Piece.bytes = bs := by
  fun_induction pieces bs <;> simp_all [Piece.bytes]

/-- The characters that a reader of a byte text sees. -/
def chars (bs : Bytes) : List Char := (pieces bs).map Piece.seen

private theorem scalar?_toNat (c : Char) {least : Nat} (h : least ≤ c.toNat) :
    scalar? least c.toNat = some c := by
  have hc : c.toNat.isValidChar := c.valid
  simp [scalar?, h, hc, Char.ofNat_toNat]

private theorem toNat_byte {n : Nat} (h : n < 256) : (UInt8.ofNat n).toNat = n := by
  rw [UInt8.toNat_ofNat', Nat.mod_eq_of_lt h]

-- The recursion is opened here only; what is said of single branches below goes through this.
private theorem pieces_cons (a : UInt8) (s₁ : Bytes) :
    pieces (a :: s₁) =
      match one? a with
      | some x => .char x [a] :: pieces s₁
      | none =>
        match s₁ with
        | [] => [.stray a]
        | b :: s₂ =>
          match two? a b with
          | some x => .char x [a, b] :: pieces s₂
          | none =>
            match s₂ with
            | [] => .stray a :: pieces [b]
            | c :: s₃ =>
              match three? a b c with
              | some x => .char x [a, b, c] :: pieces s₃
              | none =>
                match s₃ with
                | [] => .stray a :: pieces [b, c]
                | d :: s₄ =>
                  match four? a b c d with
                  | some x => .char x [a, b, c, d] :: pieces s₄
                  | none => .stray a :: pieces (b :: c :: d :: s₄) :=
  pieces.eq_def (a :: s₁)

/-- A byte that encodes a character alone is a piece of its own. -/
theorem pieces_one {a : UInt8} {x : Char} (s : Bytes) (h : one? a = some x) :
    pieces (a :: s) = .char x [a] :: pieces s := by
  rw [pieces_cons]
  simp only [h]

private theorem pieces_two {a b : UInt8} {x : Char} (s : Bytes) (h₁ : one? a = none)
    (h₂ : two? a b = some x) : pieces (a :: b :: s) = .char x [a, b] :: pieces s := by
  rw [pieces_cons]
  simp only [h₁, h₂]

private theorem pieces_three {a b c : UInt8} {x : Char} (s : Bytes) (h₁ : one? a = none)
    (h₂ : two? a b = none) (h₃ : three? a b c = some x) :
    pieces (a :: b :: c :: s) = .char x [a, b, c] :: pieces s := by
  rw [pieces_cons]
  simp only [h₁, h₂, h₃]

private theorem pieces_four {a b c d : UInt8} {x : Char} (s : Bytes) (h₁ : one? a = none)
    (h₂ : two? a b = none) (h₃ : three? a b c = none) (h₄ : four? a b c d = some x) :
    pieces (a :: b :: c :: d :: s) = .char x [a, b, c, d] :: pieces s := by
  rw [pieces_cons]
  simp only [h₁, h₂, h₃, h₄]

private theorem toNat_lt (c : Char) : c.toNat < 0x110000 := by
  have h : c.toNat.isValidChar := c.valid
  simp only [Nat.isValidChar] at h
  omega

private theorem isTail_byte (n : Nat) : isTail (UInt8.ofNat (0x80 + n % 64)) = true := by
  simp only [isTail, toNat_byte (n := 0x80 + n % 64) (by omega), Bool.and_eq_true,
    decide_eq_true_eq]
  omega

/-- An encoded character at the front of a text is its first piece. -/
theorem pieces_encodeChar_append (c : Char) (rest : Bytes) :
    pieces (encodeChar c ++ rest) = .char c (encodeChar c) :: pieces rest := by
  have hmax := toNat_lt c
  have hs {least n : Nat} (hl : least ≤ c.toNat) (hn : n = c.toNat) :
      scalar? least n = some c := by rw [hn, scalar?_toNat c hl]
  unfold encodeChar
  dsimp only
  split
  · rename_i h₁
    refine pieces_one _ ?_
    rw [one?, toNat_byte (by omega), if_pos h₁, hs (Nat.zero_le _) rfl]
  · rename_i h₁
    split
    · rename_i h₂
      refine pieces_two _ ?_ ?_
      · rw [one?, toNat_byte (by omega), if_neg (by omega)]
      · rw [two?, toNat_byte (by omega), toNat_byte (by omega),
          if_pos ⟨by omega, by omega, isTail_byte _⟩, hs (by omega) (by omega)]
    · rename_i h₂
      split
      · rename_i h₃
        refine pieces_three _ ?_ ?_ ?_
        · rw [one?, toNat_byte (by omega), if_neg (by omega)]
        · rw [two?, toNat_byte (by omega), if_neg (by omega)]
        · rw [three?, toNat_byte (by omega), toNat_byte (by omega), toNat_byte (by omega),
            if_pos ⟨by omega, by omega, isTail_byte _, isTail_byte _⟩, hs (by omega) (by omega)]
      · rename_i h₃
        refine pieces_four _ ?_ ?_ ?_ ?_
        · rw [one?, toNat_byte (by omega), if_neg (by omega)]
        · rw [two?, toNat_byte (by omega), if_neg (by omega)]
        · rw [three?, toNat_byte (by omega), if_neg (by omega)]
        · rw [four?, toNat_byte (by omega), toNat_byte (by omega), toNat_byte (by omega),
            toNat_byte (by omega),
            if_pos ⟨by omega, by omega, isTail_byte _, isTail_byte _, isTail_byte _⟩,
            hs (by omega) (by omega)]

private theorem two?_of_not_tail {a b : UInt8} (h : isTail b = false) : two? a b = none := by
  simp [two?, h]

private theorem three?_of_not_tail {a b c : UInt8} (h : isTail b = false ∨ isTail c = false) :
    three? a b c = none := by
  rcases h with h | h <;> simp [three?, h]

private theorem four?_of_not_tail {a b c d : UInt8}
    (h : isTail b = false ∨ isTail c = false ∨ isTail d = false) : four? a b c d = none := by
  rcases h with h | h | h <;> simp [four?, h]

theorem pieces_stray {a : UInt8} {s : Bytes} (h₁ : one? a = none)
    (h₂ : ∀ b r, s = b :: r → two? a b = none)
    (h₃ : ∀ b c r, s = b :: c :: r → three? a b c = none)
    (h₄ : ∀ b c d r, s = b :: c :: d :: r → four? a b c d = none) :
    pieces (a :: s) = .stray a :: pieces s := by
  rw [pieces_cons]
  simp only [h₁]
  match s with
  | [] => rfl
  | [b] => simp only [h₂ b [] rfl]
  | [b, c] => simp only [h₂ b [c] rfl, h₃ b c [] rfl]
  | b :: c :: d :: r => simp only [h₂ b _ rfl, h₃ b c _ rfl, h₄ b c d r rfl]

/-- A byte that continues no encoding is a border of the cut: what stands before it and what
starts with it are cut apart from each other. -/
theorem pieces_append_of_not_tail {b : UInt8} (hb : isTail b = false) (before after : Bytes) :
    pieces (before ++ b :: after) = pieces before ++ pieces (b :: after) := by
  fun_induction pieces before with
  | case1 => rfl
  | case2 a s x h₁ ih => rw [List.cons_append, pieces_one _ h₁, ih, List.cons_append]
  | case3 a h₁ =>
    refine pieces_stray h₁ ?_ ?_ ?_
    · rintro c r ⟨⟩
      exact two?_of_not_tail hb
    · rintro c d r ⟨⟩
      exact three?_of_not_tail (Or.inl hb)
    · rintro c d e r ⟨⟩
      exact four?_of_not_tail (Or.inl hb)
  | case4 a h₁ c s x h₂ ih =>
    rw [List.cons_append, List.cons_append, pieces_two _ h₁ h₂, ih, List.cons_append]
  | case5 a h₁ c h₂ ih =>
    change pieces (a :: ([c] ++ b :: after)) = .stray a :: (pieces [c] ++ pieces (b :: after))
    rw [← ih]
    refine pieces_stray h₁ ?_ ?_ ?_
    · rintro d r ⟨⟩
      exact h₂
    · rintro d e r ⟨⟩
      exact three?_of_not_tail (Or.inr hb)
    · rintro d e f r ⟨⟩
      exact four?_of_not_tail (Or.inr (Or.inl hb))
  | case6 a h₁ c h₂ d s x h₃ ih =>
    rw [List.cons_append, List.cons_append, List.cons_append, pieces_three _ h₁ h₂ h₃, ih,
      List.cons_append]
  | case7 a h₁ c h₂ d h₃ ih =>
    change pieces (a :: ([c, d] ++ b :: after)) = .stray a :: (pieces [c, d] ++ pieces (b :: after))
    rw [← ih]
    refine pieces_stray h₁ ?_ ?_ ?_
    · rintro e r ⟨⟩
      exact h₂
    · rintro e f r ⟨⟩
      exact h₃
    · rintro e f g r ⟨⟩
      exact four?_of_not_tail (Or.inr (Or.inr hb))
  | case8 a h₁ c h₂ d h₃ e s x h₄ ih =>
    rw [List.cons_append, List.cons_append, List.cons_append, List.cons_append,
      pieces_four _ h₁ h₂ h₃ h₄, ih, List.cons_append]
  | case9 a h₁ c h₂ d h₃ e s h₄ ih =>
    change pieces (a :: (c :: d :: e :: s ++ b :: after)) =
      .stray a :: (pieces (c :: d :: e :: s) ++ pieces (b :: after))
    rw [← ih]
    refine pieces_stray h₁ ?_ ?_ ?_
    · rintro f r ⟨⟩
      exact h₂
    · rintro f g r ⟨⟩
      exact h₃
    · rintro f g i r ⟨⟩
      exact h₄

/-- Reading undoes encoding. -/
theorem chars_encode (s : String) : chars (encode s) = s.toList := by
  unfold chars encode
  induction s.toList with
  | nil => rfl
  | cons c cs ih =>
    rw [List.flatMap_cons, pieces_encodeChar_append, List.map_cons, ih]
    rfl

end MiniC.Text
