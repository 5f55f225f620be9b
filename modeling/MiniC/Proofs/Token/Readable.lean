import MiniC.Proofs.Layout
import MiniC.Proofs.Text.Piece
import MiniC.Proofs.Token.Account
import MiniC.Proofs.Token.Border

/-!
# Reading elements back

Elements that are written one behind the other are read back as they are, as
long as none of them is continued by what follows it. Blanks, strings and
brackets end by themselves, and so does an operator with an equals sign; words,
numbers and other operators have to stand apart from what follows.
-/

namespace MiniC.Lexical

open Element

/-- Nothing that a word, a number or an operator could be continued by. -/
def Apart (rest : List Char) : Prop :=
  ∀ c ∈ rest.head?, continuesWord c = false ∧ c ≠ '.' ∧ c ≠ '=' ∧ c ≠ '/' ∧ c ≠ '*'

/-- The elements that are read at the front of a source as they are, with what follows them. -/
inductive Heads : Element → List Char → Prop
  | blank {c : Char} {rest : List Char} : Text.isBlank c → Heads (.blank c) rest
  | integer {s rest : List Char} : Digits s → Apart rest → Heads (.number s none) rest
  | floating {whole fraction rest : List Char} :
    Digits whole → Digits fraction → Apart rest → Heads (.number whole (some fraction)) rest
  | word {c : Char} {cs rest : List Char} :
    startsWord c → (∀ d ∈ cs, continuesWord d) → Apart rest → Heads (.word (c :: cs)) rest
  | string {body content rest : List Char} :
    Content body content → Heads (.quotation body true) rest
  | comparing {c : Char} {rest : List Char} : isComparing c → Heads (.operator c true) rest
  | sign {c : Char} {rest : List Char} :
    isComparing c ∨ isArithmetic c → Apart rest → Heads (.operator c false) rest
  | punct {c : Char} {rest : List Char} : isPunct c → Heads (.punct c) rest

/-- Elements of which each is read with the texts of the later ones behind it. -/
inductive Readable : List Element → Prop
  | nil : Readable []
  | cons {e : Element} {es : List Element} :
    Heads e (es.flatMap text) → Readable es → Readable (e :: es)

theorem apart_nil : Apart [] := by
  intro c hc
  cases hc

theorem apart_cons {c : Char}
    (h : continuesWord c = false ∧ c ≠ '.' ∧ c ≠ '=' ∧ c ≠ '/' ∧ c ≠ '*') (rest : List Char) :
    Apart (c :: rest) := by
  intro d hd
  cases hd
  exact h

theorem apart_space (rest : List Char) : Apart (' ' :: rest) := apart_cons (by decide) rest

section Apart

variable {rest : List Char}

theorem Apart.stops (h : Apart rest) : Stops continuesWord rest := fun c hc => (h c hc).1

theorem Apart.stops_isDigit (h : Apart rest) : Stops isDigit rest := by
  intro c hc
  have hword := h.stops c hc
  rw [continuesWord, Bool.or_eq_false_iff] at hword
  exact hword.2

theorem Apart.fraction? (h : Apart rest) : fraction? rest = none := by
  cases rest with
  | nil => rfl
  | cons d rest =>
    have hpoint := (h d rfl).2.1
    cases rest with
    | nil => rfl
    | cons e rest => simp [Element.fraction?, hpoint]

end Apart

/-- An element that heads a source ends where the rest of the source begins. -/
theorem Heads.ends {e : Element} {rest : List Char} (h : Heads e rest) : Ends e rest := by
  cases h with
  | blank hc => exact .blank hc
  | integer hs hrest => exact .integer hs hrest.stops_isDigit hrest.fraction?
  | floating hw hf hrest => exact .floating hw hf hrest.stops_isDigit
  | word hc hcs hrest => exact .word hc hcs hrest.stops
  | string hbody => exact .string hbody
  | comparing hc => exact .comparing hc
  | sign hc hrest =>
    refine .sign hc (fun _ d hd => ?_) (fun _ d hd => ?_)
    · simpa using (hrest d hd).2.2.1
    · simpa using (hrest d hd).2.2.2
  | punct hc => exact .punct hc

/-- Readable elements are read back from their texts. -/
theorem Readable.split_flatMap_text {es : List Element} (h : Readable es) :
    split (es.flatMap text) = es := by
  induction h with
  | nil => rw [List.flatMap_nil, split]
  | cons he _ ih => rw [List.flatMap_cons, he.ends.split_append, ih]

/-- What is read from the texts of readable elements, line by line. -/
theorem Readable.lex_eq {es : List Element} (h : Readable es) :
    lex ((es.flatMap text).flatMap Text.encodeChar) =
      { tokens := tokensFrom 1 es ++ [endToken (1 + (es.flatMap text).count '\n' : Nat)]
        diagnostics := reportsFrom 1 es } := by
  have hchars : Text.chars ((es.flatMap text).flatMap Text.encodeChar) = es.flatMap text := by
    rw [← Text.encode_ofList, Text.chars_encode, String.toList_ofList]
  rw [lex, hchars, lexChars, h.split_flatMap_text]

/-! ## The tokens of elements -/

theorem wordKind_eq {word : String} {kind : Kind} (h : WordKind word kind) :
    wordKind word = kind := by
  cases h with
  | keyword hk => simp [wordKind, hk]
  | type ht =>
    have hk : word ∉ keywords := by
      have hdisjoint : ∀ w ∈ typeWords, w ∉ keywords := by decide
      exact hdisjoint word ht
    simp [wordKind, hk, ht]
  | identifier hk ht => simp [wordKind, hk, ht]

/-- The line of an element decides nothing but the line of its token. -/
theorem unplaced_token? (line : Int) (e : Element) :
    (e.token? line).map Token.unplaced = e.token? 0 := by
  cases e <;> rfl

private theorem wordKind_ne_eof (word : String) : wordKind word ≠ .eof := by
  rw [wordKind]
  split
  · decide
  · split <;> decide

theorem kind_token? {line : Int} {e : Element} {t : Token} (h : e.token? line = some t) :
    t.kind ≠ .eof := by
  cases e with
  | word s =>
    cases h
    exact wordKind_ne_eof _
  | _ =>
    cases h
    all_goals nofun

theorem kind_of_mem_tokensFrom {line : Nat} {es : List Element} {t : Token}
    (h : t ∈ tokensFrom line es) : t.kind ≠ .eof := by
  obtain ⟨⟨line', e⟩, -, ht⟩ := List.mem_filterMap.mp h
  exact kind_token? ht

theorem unplaced_tokensFrom (line : Nat) (es : List Element) :
    (tokensFrom line es).map Token.unplaced = es.filterMap (Element.token? 0) := by
  induction es generalizing line with
  | nil => rfl
  | cons e es ih =>
    rw [tokensFrom_cons, List.map_append, ih, List.filterMap_cons, ← unplaced_token? line e]
    cases e.token? line with
    | none => rfl
    | some t => rfl

end MiniC.Lexical
