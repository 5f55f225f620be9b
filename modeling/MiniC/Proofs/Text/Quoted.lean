import Mathlib.Data.Nat.Digits.Defs
import MiniC.Proofs.Text.Piece
import MiniC.Text.Quoted

/-!
# Reading quoted texts

What is quoted can be read back. A backslash announces an escape, the character
behind it tells which one and how many digits follow, and every other character
stands for itself. So different texts are quoted differently, whether they are
well-formed or not.
-/

namespace MiniC.Text

/-! ## Hexadecimal numbers -/

/-- The value of a hexadecimal digit. -/
def hexDigit (c : Char) : Nat :=
  if c.toNat < 'a'.toNat then c.toNat - '0'.toNat else c.toNat - 'a'.toNat + 10

/-- The number that hexadecimal digits denote. -/
def hexValue (ds : List Char) : Nat := ds.foldl (fun n d => 16 * n + hexDigit d) 0

theorem hexDigit_digitChar {n : Nat} (h : n < 16) : hexDigit n.digitChar = n := by
  have hall : ∀ m : Fin 16, hexDigit m.val.digitChar = m.val := by decide
  exact hall ⟨n, h⟩

theorem hexValue_toDigits (n : Nat) : hexValue (Nat.toDigits 16 n) = n := by
  induction n using Nat.strongRecOn with
  | ind n ih =>
    by_cases h : n < 16
    · rw [Nat.toDigits_of_lt_base h]
      simp [hexValue, hexDigit_digitChar h]
    · have hdigit : hexDigit (n % 16).digitChar = n % 16 := hexDigit_digitChar (by omega)
      have hrest := ih (n / 16) (by omega)
      rw [Nat.toDigits_of_base_le (by decide) (by omega), hexValue, List.foldl_append]
      rw [hexValue] at hrest
      simp only [List.foldl_cons, List.foldl_nil, hrest, hdigit]
      omega

/-- Zeros in front change nothing. -/
theorem hexValue_hex (width n : Nat) : hexValue (hex width n) = n := by
  have hzeros (k : Nat) (ds : List Char) : hexValue (List.replicate k '0' ++ ds) = hexValue ds := by
    induction k with
    | zero => rfl
    | succ k ih => exact ih
  rw [hex, hzeros, hexValue_toDigits]

theorem length_hex {width n : Nat} (hw : 0 < width) (h : n < 16 ^ width) :
    (hex width n).length = width := by
  have hle : (Nat.toDigits 16 n).length ≤ width := (Nat.length_toDigits_le_iff (by decide) hw).mpr h
  rw [hex, List.length_append, List.length_replicate]
  omega

/-! ## Reading back -/

/-- The piece of a character with its encoding. -/
def Piece.whole (c : Char) : Piece := .char c (encodeChar c)

/-- How many digits follow a letter behind a backslash, if it announces a number. -/
def hexWidth? (letter : Char) : Option Nat :=
  match letter with
  | 'x' => some 2
  | 'u' => some 4
  | 'U' => some 8
  | _ => none

/-- The piece that is written by a number: a stray byte if it has two digits and is none of the
bytes that stand for a character alone. -/
def hexPiece (letter : Char) (n : Nat) : Piece :=
  if letter = 'x' ∧ 0x80 ≤ n then .stray (UInt8.ofNat n) else .whole (Char.ofNat n)

/-- The character that a letter behind a backslash names. -/
def namedChar (letter : Char) : Char :=
  match letter with
  | 'a' => '\x07'
  | 'b' => '\x08'
  | 't' => '\t'
  | 'n' => '\n'
  | 'v' => '\x0B'
  | 'f' => '\x0C'
  | 'r' => '\r'
  | c => c

/-- Read the first piece of escaped content. -/
def readPiece : List Char → Option (Piece × List Char)
  | [] => none
  | c :: rest =>
    if c = '\\' then
      match rest with
      | [] => none
      | letter :: rest =>
        match hexWidth? letter with
        | some width => some (hexPiece letter (hexValue (rest.take width)), rest.drop width)
        | none => some (.whole (namedChar letter), rest)
    else some (.whole c, rest)

theorem readPiece_hex {letter : Char} {width n : Nat} (hletter : hexWidth? letter = some width)
    (hw : 0 < width) (h : n < 16 ^ width) (rest : List Char) :
    readPiece ('\\' :: letter :: hex width n ++ rest) = some (hexPiece letter n, rest) := by
  have hlength := length_hex hw h
  have htake : (hex width n ++ rest).take width = hex width n := List.take_left' hlength
  have hdrop : (hex width n ++ rest).drop width = rest := List.drop_left' hlength
  rw [List.cons_append, List.cons_append, readPiece, if_pos rfl, hletter]
  dsimp only
  rw [htake, hdrop, hexValue_hex]

theorem readPiece_named {letter : Char} (hletter : hexWidth? letter = none) (rest : List Char) :
    readPiece ('\\' :: letter :: rest) = some (.whole (namedChar letter), rest) := by
  rw [readPiece, if_pos rfl, hletter]

theorem readPiece_plain {c : Char} (hc : c ≠ '\\') (rest : List Char) :
    readPiece (c :: rest) = some (.whole c, rest) := by
  unfold readPiece
  exact if_neg hc

theorem namedChar_of_controlLetter? {c letter : Char} (h : controlLetter? c = some letter) :
    hexWidth? letter = none ∧ namedChar letter = c := by
  have hc {n : Nat} (hn : c.toNat = n) : c = Char.ofNat n := by rw [← hn, Char.ofNat_toNat]
  unfold controlLetter? at h
  split at h
  case h_8 => cases h
  all_goals
    rename_i hn
    cases h
    exact ⟨rfl, (hc hn).symm⟩

/-- A character is read back from its escape. -/
theorem readPiece_escape (c : Char) (rest : List Char) :
    readPiece (escape '"' c ++ rest) = some (.whole c, rest) := by
  have hmax := toNat_lt_max c
  unfold escape
  split
  · rename_i hc
    rcases hc with rfl | rfl <;> rfl
  · rename_i hc
    split
    · exact readPiece_plain (fun h => hc (.inr h)) rest
    · split
      · rename_i letter hletter
        obtain ⟨hwidth, hnamed⟩ := namedChar_of_controlLetter? hletter
        rw [← hnamed]
        exact readPiece_named hwidth rest
      · split
        · have hpiece : hexPiece 'x' c.toNat = .whole c := by
            rw [hexPiece, if_neg (by omega), Char.ofNat_toNat]
          rw [readPiece_hex rfl (by decide) (by omega), hpiece]
        · split
          · have hpiece : hexPiece 'u' c.toNat = .whole c := by
              rw [hexPiece, if_neg (by simp), Char.ofNat_toNat]
            rw [readPiece_hex rfl (by decide) (by omega), hpiece]
          · have hpiece : hexPiece 'U' c.toNat = .whole c := by
              rw [hexPiece, if_neg (by simp), Char.ofNat_toNat]
            rw [readPiece_hex rfl (by decide) (by omega), hpiece]

/-- A piece is read back from its escape. -/
theorem readPiece_pieceEscape {p : Piece} (h : p.WellFormed) (rest : List Char) :
    readPiece (p.escape '"' ++ rest) = some (p, rest) := by
  cases p with
  | char c encoding =>
    obtain rfl : encoding = encodeChar c := h
    exact readPiece_escape c rest
  | stray b =>
    have hmax := b.toNat_lt
    have hpiece : hexPiece 'x' b.toNat = .stray b := by
      rw [hexPiece, if_pos ⟨rfl, h⟩, UInt8.ofNat_toNat]
    rw [Piece.escape, readPiece_hex rfl (by decide) (by omega), hpiece]

/-- Pieces are read back from their escapes, one after the other. -/
theorem flatMap_escape_inj {ps qs : List Piece} (hp : ∀ p ∈ ps, p.WellFormed)
    (hq : ∀ q ∈ qs, q.WellFormed)
    (h : ps.flatMap (Piece.escape '"') = qs.flatMap (Piece.escape '"')) : ps = qs := by
  have hread {p : Piece} {rest : List Char} (hp : p.WellFormed) : p.escape '"' ++ rest ≠ [] := by
    intro hnil
    have hread := readPiece_pieceEscape hp rest
    rw [hnil] at hread
    cases hread
  induction ps generalizing qs with
  | nil =>
    cases qs with
    | nil => rfl
    | cons q qs => exact absurd h.symm (hread (List.forall_mem_cons.mp hq).1)
  | cons p ps ih =>
    obtain ⟨hp, hps⟩ := List.forall_mem_cons.mp hp
    cases qs with
    | nil => exact absurd h (hread hp)
    | cons q qs =>
      obtain ⟨hq, hqs⟩ := List.forall_mem_cons.mp hq
      have hfirst := congrArg readPiece h
      rw [List.flatMap_cons, List.flatMap_cons, readPiece_pieceEscape hp,
        readPiece_pieceEscape hq] at hfirst
      obtain ⟨rfl, hrest⟩ := Prod.mk.inj (Option.some.inj hfirst)
      rw [ih hps hqs hrest]

theorem encode_inj {s t : String} (h : encode s = encode t) : s = t := by
  rw [← String.toList_inj, ← chars_encode s, ← chars_encode t, h]

/-- Different texts are quoted differently. -/
theorem quoted_inj {bs cs : Bytes} (h : quoted bs = quoted cs) : bs = cs := by
  have hpieces : pieces bs = pieces cs := by
    have hchars := congrArg String.toList h
    simp only [quoted, enclose, String.toList_ofList, List.cons_append, List.cons.injEq,
      List.append_cancel_right_eq, true_and] at hchars
    exact flatMap_escape_inj (fun _ => wellFormed_of_mem_pieces)
      (fun _ => wellFormed_of_mem_pieces) hchars
  rw [← flatMap_bytes_pieces bs, hpieces, flatMap_bytes_pieces]

end MiniC.Text
