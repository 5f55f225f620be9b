import MiniC.Text.Blank
import MiniC.Text.Letter

/-!
# Lexical elements

A source falls apart into lexical elements: blanks, comments and characters
that mean nothing on the one hand, and the texts of tokens on the other. Each
element is the longest that can start where it starts, every element covers at
least one character, and together they cover the whole source.
-/

namespace MiniC

/-- One lexical element, with the text it covers. -/
inductive Element where
  /-- A blank character. -/
  | blank (c : Char)
  /-- A comment or directive that ends before the next line feed. -/
  | remark (text : List Char)
  /-- What follows the opening of a block comment, without its closing. -/
  | comment (body : List Char) (closed : Bool)
  /-- A character that starts no element of the language. -/
  | unknown (c : Char)
  /-- Digits, possibly with a point and further digits. -/
  | number (whole : List Char) (fraction : Option (List Char))
  /-- A letter or underscore and all letters, underscores and digits after it. -/
  | word (text : List Char)
  /-- What stands behind an opening quote, still escaped, without the closing quote. -/
  | quotation (body : List Char) (closed : Bool)
  /-- An operator sign, possibly with an equals sign after it. -/
  | operator (c : Char) (equals : Bool)
  /-- A separator or bracket. -/
  | punct (c : Char)
  deriving DecidableEq, Repr

namespace Element

/-- The source text that an element covers. -/
def text : Element → List Char
  | .blank c => [c]
  | .remark text => text
  | .comment body closed => '/' :: '*' :: body ++ if closed then ['*', '/'] else []
  | .unknown c => [c]
  | .number whole none => whole
  | .number whole (some fraction) => whole ++ '.' :: fraction
  | .word text => text
  | .quotation body closed => '"' :: body ++ if closed then ['"'] else []
  | .operator c equals => c :: if equals then ['='] else []
  | .punct c => [c]

/-- Decimal digits are the ten of ASCII. -/
def isDigit (c : Char) : Bool := '0' ≤ c && c ≤ '9'

/-- Characters that may start a word. -/
def startsWord (c : Char) : Bool := Text.isLetter c || c == '_'

/-- Characters that may follow in a word. -/
def continuesWord (c : Char) : Bool := startsWord c || isDigit c

/-- Operator signs that an equals sign extends. -/
def isComparing (c : Char) : Bool := c == '=' || c == '!' || c == '<' || c == '>'

/-- Operator signs that stand alone. -/
def isArithmetic (c : Char) : Bool :=
  c == '+' || c == '-' || c == '*' || c == '/' || c == '%' || c == '&' || c == '|' || c == '^'

/-- Separators and brackets. -/
def isPunct (c : Char) : Bool :=
  c == ';' || c == ',' || c == '(' || c == ')' || c == '\x7b' || c == '\x7d' ||
    c == '[' || c == ']'

/-- Split what follows the opening of a block comment at its first closing. -/
def commentBody : List Char → List Char × Bool × List Char
  | [] => ([], false, [])
  | [c] => ([c], false, [])
  | c :: d :: rest =>
    if c = '*' ∧ d = '/' then ([], true, rest)
    else
      let (body, closed, rest) := commentBody (d :: rest)
      (c :: body, closed, rest)

/-- Split what follows an opening quote at the first quote that no backslash escapes. -/
def quotationBody : List Char → List Char × Bool × List Char
  | [] => ([], false, [])
  | [c] => if c = '"' then ([], true, []) else ([c], false, [])
  | c :: d :: rest =>
    if c = '"' then ([], true, d :: rest)
    else if c = '\\' then
      let (body, closed, rest) := quotationBody rest
      (c :: d :: body, closed, rest)
    else
      let (body, closed, rest) := quotationBody (d :: rest)
      (c :: body, closed, rest)

/-- The digits after a point, if a point and a digit come next, and what follows them. -/
def fraction? : List Char → Option (List Char × List Char)
  | p :: d :: rest =>
    if p = '.' ∧ isDigit d then
      some ((d :: rest).takeWhile isDigit, (d :: rest).dropWhile isDigit)
    else none
  | _ => none

/-- The element at the start of a source that begins with `c`, and what follows it. -/
def first (c : Char) (rest : List Char) : Element × List Char :=
  if Text.isBlank c then (.blank c, rest)
  else if c = '#' ∨ (c = '/' ∧ rest.head? = some '/') then
    (.remark ((c :: rest).takeWhile (· != '\n')), (c :: rest).dropWhile (· != '\n'))
  else if c = '/' ∧ rest.head? = some '*' then
    let (body, closed, rest) := commentBody rest.tail
    (.comment body closed, rest)
  else if isDigit c then
    match fraction? ((c :: rest).dropWhile isDigit) with
    | some (fraction, rest') => (.number ((c :: rest).takeWhile isDigit) (some fraction), rest')
    | none => (.number ((c :: rest).takeWhile isDigit) none, (c :: rest).dropWhile isDigit)
  else if startsWord c then
    (.word ((c :: rest).takeWhile continuesWord), (c :: rest).dropWhile continuesWord)
  else if c = '"' then
    let (body, closed, rest) := quotationBody rest
    (.quotation body closed, rest)
  else if isComparing c ∧ rest.head? = some '=' then (.operator c true, rest.tail)
  else if isComparing c ∨ isArithmetic c then (.operator c false, rest)
  else if isPunct c then (.punct c, rest)
  else (.unknown c, rest)

/-- The body of a block comment, its closing and the rest cover the source. -/
theorem commentBody_append (cs : List Char) :
    (commentBody cs).1 ++ (if (commentBody cs).2.1 then ['*', '/'] else []) ++
      (commentBody cs).2.2 = cs := by
  fun_induction commentBody cs with
  | case1 => rfl
  | case2 => rfl
  | case3 c d rest h => simp [h]
  | case4 c d rest _ body closed rest' h ih => simpa [h] using ih

/-- The body of a string literal, its closing quote and the rest cover the source. -/
theorem quotationBody_append (cs : List Char) :
    (quotationBody cs).1 ++ (if (quotationBody cs).2.1 then ['"'] else []) ++
      (quotationBody cs).2.2 = cs := by
  fun_induction quotationBody cs <;> simp_all

/-- The point, the digits after it and the rest cover the source. -/
theorem fraction?_append {cs fraction rest : List Char}
    (h : fraction? cs = some (fraction, rest)) : '.' :: (fraction ++ rest) = cs := by
  unfold fraction? at h
  split at h
  · rename_i p d tail
    split at h
    · rename_i hp
      simp only [Option.some.injEq, Prod.mk.injEq] at h
      rw [← h.1, ← h.2, List.takeWhile_append_dropWhile, hp.1]
    · cases h
  · cases h

/-- The first element and what follows it cover the source. -/
theorem text_first_append (c : Char) (rest : List Char) :
    (first c rest).1.text ++ (first c rest).2 = c :: rest := by
  fun_cases first c rest with
  | case1 => rfl
  | case2 => simp only [text, List.takeWhile_append_dropWhile]
  | case3 _ _ h body closed rest' hb =>
    have hc := commentBody_append rest.tail
    rw [hb] at hc
    cases rest with
    | nil => simp at h
    | cons d tail => simp_all [text]
  | case4 _ _ _ _ fraction rest' hf =>
    have hc := fraction?_append hf
    simp only [text, List.append_assoc, List.cons_append, hc, List.takeWhile_append_dropWhile]
  | case5 => simp only [text, List.takeWhile_append_dropWhile]
  | case6 => simp only [text, List.takeWhile_append_dropWhile]
  | case7 _ _ _ _ _ h body closed rest' hb =>
    have hc := quotationBody_append rest
    rw [hb] at hc
    simp_all [text]
  | case8 _ _ _ _ _ _ h =>
    cases rest with
    | nil => simp at h
    | cons d tail => simp_all [text]
  | case9 => rfl
  | case10 => rfl
  | case11 => rfl

/-- The first element covers at least one character. -/
theorem text_first_ne_nil (c : Char) (rest : List Char) : (first c rest).1.text ≠ [] := by
  fun_cases first c rest with
  | case2 _ h =>
    have hc : c ≠ '\n' := by rcases h with rfl | ⟨rfl, _⟩ <;> decide
    simp [text, hc]
  | _ => simp_all [text, continuesWord]

/-- What follows the first element is shorter than the source. -/
theorem length_first_lt (c : Char) (rest : List Char) :
    (first c rest).2.length < (c :: rest).length := by
  have h := congrArg List.length (text_first_append c rest)
  have hn := List.length_pos_iff.mpr (text_first_ne_nil c rest)
  rw [List.length_append] at h
  omega

/-- Split a source into its elements. -/
def split : List Char → List Element
  | [] => []
  | c :: rest => (first c rest).1 :: split (first c rest).2
  termination_by cs => cs.length
  decreasing_by exact length_first_lt c rest

/-- The elements cover the whole source. -/
theorem flatMap_text_split (cs : List Char) : (split cs).flatMap text = cs := by
  fun_induction split cs with
  | case1 => rfl
  | case2 c rest ih => rw [List.flatMap_cons, ih, text_first_append]

end Element

end MiniC
