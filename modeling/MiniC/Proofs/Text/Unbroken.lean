import MiniC.Compile
import MiniC.Proofs.Text.Piece
import MiniC.Tree

/-!
# Texts without line feeds

A report is one line if none of its parts holds a line feed. Quoted texts hold
none, whatever they quote, since a line feed is escaped like every character
that leaves no mark on paper; numbers and the names of kinds hold none either.
So the lines of tokens and the messages of syntax errors are single lines for
every token and every error there is.
-/

namespace MiniC

namespace Text

/-- A text without a line feed. -/
def Unbroken (bs : Bytes) : Prop := lineFeed ∉ bs

instance (bs : Bytes) : Decidable (Unbroken bs) := inferInstanceAs (Decidable (lineFeed ∉ bs))

/-- A text that ends in a line feed and has no other. -/
def IsLine (w : Bytes) : Prop := ∃ bs, Unbroken bs ∧ w = bs ++ [lineFeed]

@[simp] theorem unbroken_nil : Unbroken [] := List.not_mem_nil

@[simp] theorem unbroken_append {bs cs : Bytes} :
    Unbroken (bs ++ cs) ↔ Unbroken bs ∧ Unbroken cs := by
  rw [Unbroken, List.mem_append, not_or]
  rfl

@[simp] theorem unbroken_encode {s : String} : Unbroken (encode s) ↔ '\n' ∉ s.toList := by
  rw [Unbroken, encode, List.mem_flatMap]
  constructor
  · intro h hnewline
    exact h ⟨'\n', hnewline, List.mem_singleton_self lineFeed⟩
  · rintro h ⟨c, hc, hfeed⟩
    rw [eq_newline_of_lineFeed_mem hfeed] at hc
    exact h hc

theorem isLine_append_newline {bs : Bytes} : IsLine (bs ++ encode "\n") ↔ Unbroken bs := by
  constructor
  · rintro ⟨cs, hcs, heq⟩
    rwa [List.append_cancel_right heq]
  · intro h
    exact ⟨bs, h, rfl⟩

theorem unbroken_intercalate {separator : Bytes} (hs : Unbroken separator) {parts : List Bytes}
    (h : ∀ part ∈ parts, Unbroken part) : Unbroken (separator.intercalate parts) := by
  induction parts with
  | nil => exact unbroken_nil
  | cons part rest ih =>
    obtain ⟨hpart, hrest⟩ := List.forall_mem_cons.mp h
    cases rest with
    | nil =>
      rw [List.intercalate_singleton]
      exact hpart
    | cons next rest =>
      rw [List.intercalate_cons_cons, unbroken_append, unbroken_append]
      exact ⟨⟨hpart, hs⟩, ih hrest⟩

@[simp] theorem unbroken_column {width : Nat} {bs : Bytes} :
    Unbroken (column width bs) ↔ Unbroken bs := by
  have hspaces (n : Nat) : Unbroken (List.replicate n space) := fun hfeed =>
    absurd (List.eq_of_mem_replicate hfeed) (by decide)
  rw [column, unbroken_append, and_iff_left (hspaces _)]

/-! ## Numbers -/

private theorem newline_not_mem_toDigitsCore (base fuel n : Nat) {ds : List Char}
    (h : '\n' ∉ ds) : '\n' ∉ Nat.toDigitsCore base fuel n ds := by
  induction fuel generalizing n ds with
  | zero => exact h
  | succ fuel ih =>
    have hcons : '\n' ∉ (n % base).digitChar :: ds := by
      rw [List.mem_cons, not_or]
      exact ⟨(Nat.digitChar_ne '\n' rfl).symm, h⟩
    rw [Nat.toDigitsCore]
    split
    · exact hcons
    · exact ih _ hcons

@[simp] theorem newline_not_mem_toDigits (base n : Nat) : '\n' ∉ Nat.toDigits base n :=
  newline_not_mem_toDigitsCore base _ n List.not_mem_nil

@[simp] theorem newline_not_mem_repr (i : Int) : '\n' ∉ i.repr.toList := by
  have hnat (n : Nat) : '\n' ∉ n.repr.toList := by
    rw [Nat.repr_eq_ofList_toDigits, String.toList_ofList]
    exact newline_not_mem_toDigits 10 n
  rw [Int.repr_eq_if]
  split
  · exact hnat _
  · rw [String.toList_append, List.mem_append, not_or]
    exact ⟨by decide, hnat _⟩

/-! ## Quoted texts -/

private theorem newline_not_mem_hex (width n : Nat) : '\n' ∉ hex width n := by
  simp [hex]

private theorem controlLetter?_ne_newline {c letter : Char} (h : controlLetter? c = some letter) :
    letter ≠ '\n' := by
  unfold controlLetter? at h
  split at h <;> cases h <;> decide

/-- An escaped character is written without a line feed. -/
theorem newline_not_mem_escape {quote : Char} (hq : quote ≠ '\n') (c : Char) :
    '\n' ∉ escape quote c := by
  have hescaped {cs : List Char} {d : Char} (hd : d ≠ '\n') (hcs : '\n' ∉ cs) :
      '\n' ∉ '\\' :: d :: cs := by
    simp [hd.symm, hcs]
  unfold escape
  split
  · rename_i hc
    have hne : c ≠ '\n' := by
      rcases hc with rfl | rfl
      · exact hq
      · decide
    exact hescaped hne List.not_mem_nil
  · split
    · rename_i hp
      have hnewline : isPrintable '\n' = false := by decide
      intro h
      rw [← List.mem_singleton.mp h, hnewline] at hp
      cases hp
    · split
      · rename_i letter hletter
        exact hescaped (controlLetter?_ne_newline hletter) List.not_mem_nil
      · split
        · exact hescaped (by decide) (newline_not_mem_hex _ _)
        · split
          · exact hescaped (by decide) (newline_not_mem_hex _ _)
          · exact hescaped (by decide) (newline_not_mem_hex _ _)

private theorem newline_not_mem_pieceEscape {quote : Char} (hq : quote ≠ '\n') (p : Piece) :
    '\n' ∉ p.escape quote := by
  cases p with
  | char c encoding => exact newline_not_mem_escape hq c
  | stray b => simp [Piece.escape, newline_not_mem_hex]

private theorem newline_not_mem_enclose {quote : Char} (hq : quote ≠ '\n') {content : List Char}
    (h : '\n' ∉ content) : '\n' ∉ (enclose quote content).toList := by
  simp [enclose, hq.symm, h]

/-- What is quoted is written without a line feed, whatever it is. -/
@[simp] theorem newline_not_mem_quoted (bs : Bytes) : '\n' ∉ (quoted bs).toList := by
  refine newline_not_mem_enclose (by decide) fun h => ?_
  obtain ⟨p, -, hp⟩ := List.mem_flatMap.mp h
  exact newline_not_mem_pieceEscape (by decide) p hp

@[simp] theorem newline_not_mem_quotedChar (c : Char) : '\n' ∉ (quotedChar c).toList :=
  newline_not_mem_enclose (by decide) (newline_not_mem_escape (by decide) c)

end Text

open Text

/-! ## Values -/

namespace FloatText

private theorem newline_not_mem_significant (n : Nat) : '\n' ∉ significant n := by
  intro h
  have hdigits := (List.dropWhile_suffix _).mem (List.mem_reverse.mp h)
  exact newline_not_mem_toDigits 10 n (List.mem_reverse.mp hdigits)

private theorem newline_not_mem_positional {digits : List Char} (h : '\n' ∉ digits) (point : Int) :
    '\n' ∉ positional digits point := by
  have htake : '\n' ∉ digits.take point.toNat := fun hmem => h (List.mem_of_mem_take hmem)
  have hdrop : '\n' ∉ digits.drop point.toNat := fun hmem => h (List.mem_of_mem_drop hmem)
  unfold positional
  split
  · simp [h]
  · split
    · simp [h]
    · simp [htake, hdrop]

private theorem newline_not_mem_exponentPart (e : Int) : '\n' ∉ exponentPart e := by
  have hsign : '\n' ≠ if e < 0 then '-' else '+' := by split <;> decide
  simp [exponentPart, hsign]

private theorem newline_not_mem_scientific {digits : List Char} (h : '\n' ∉ digits) (e : Int) :
    '\n' ∉ scientific digits e := by
  have hexponent := newline_not_mem_exponentPart e
  unfold scientific
  split
  · exact hexponent
  · simp_all
  · simp_all

theorem newline_not_mem_magnitude (mantissa : Nat) (exponent : Int) :
    '\n' ∉ magnitude mantissa exponent := by
  unfold magnitude layout
  split
  · decide
  · dsimp only
    split
    · exact newline_not_mem_positional (newline_not_mem_significant _) _
    · exact newline_not_mem_scientific (newline_not_mem_significant _) _

end FloatText

theorem newline_not_mem_floatText (f : Float) : '\n' ∉ (floatText f).toList := by
  unfold floatText
  split
  · decide
  · decide
  · decide
  · simp [FloatText.newline_not_mem_magnitude]
  · simp [FloatText.newline_not_mem_magnitude]

@[simp] theorem Value.newline_not_mem_text (v : Value) : '\n' ∉ v.text.toList := by
  cases v with
  | int i => exact newline_not_mem_repr i.toInt
  | float f => exact newline_not_mem_floatText f

@[simp] theorem Constant.unbroken_text (c : Constant) : Unbroken c.text := by
  cases c <;> simp [Constant.text]

/-! ## Tokens and syntax errors -/

@[simp] theorem Kind.newline_not_mem_name (k : Kind) : '\n' ∉ k.name.toList := by
  cases k with
  | other n => simp [Kind.name]
  | _ => decide

namespace Token

@[simp] theorem unbroken_naming (k : Kind) (lexeme : Bytes) : Unbroken (naming k lexeme) := by
  simp [naming]

@[simp] theorem unbroken_describe (t : Token) : Unbroken t.describe := by
  unfold describe
  split <;> simp

@[simp] theorem unbroken_text (t : Token) : Unbroken t.text := by
  simp [text]

end Token

@[simp] theorem Parse.Expected.unbroken_text (expected : Parse.Expected) :
    Unbroken expected.text := by
  cases expected <;> simp [Parse.Expected.text]

namespace SyntaxError

@[simp] theorem unbroken_gotText (e : SyntaxError) : Unbroken e.gotText := by
  unfold gotText
  split <;> simp

@[simp] theorem unbroken_compileMessage (e : SyntaxError) : Unbroken e.compileMessage := by
  simp [compileMessage, message]

end SyntaxError

/-! ## Diagnostics -/

theorem Diagnostic.isLine_logLine {d : Diagnostic} {heading : Bytes} (hheading : Unbroken heading)
    (hlevel : Unbroken d.level) (hmessage : Unbroken d.message) : IsLine (d.logLine heading) := by
  have htext : Unbroken d.text := by
    unfold text
    split <;> simp [hlevel, hmessage]
  rw [logLine, isLine_append_newline, unbroken_append]
  exact ⟨hheading, htext⟩

end MiniC
