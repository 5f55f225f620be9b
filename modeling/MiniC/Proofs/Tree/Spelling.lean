import MiniC.Proofs.Parse.Location
import MiniC.Proofs.Text.Piece
import MiniC.Proofs.Token.Readable
import MiniC.Tree

/-!
# Expressions are spelled as they are read

The text by which messages name an expression is itself an expression of the
language: read as the only statement of a function, it gives back the tree that
it was taken from. Its brackets leave no operator to choose its operands, its
quotes escape whatever would end a string early, and its blanks keep words,
numbers and signs apart.
-/

namespace MiniC

open Text

/-- The expressions that have a text in the language: words that are not reserved, integers that
need no sign, strings of characters that can be seen or have an escape, and operations on them. -/
inductive Expr.Speakable : Expr → Prop
  | var {c : Char} {cs : List Char} :
    Element.startsWord c → (∀ d ∈ cs, Element.continuesWord d) →
      String.ofList (c :: cs) ∉ keywords → String.ofList (c :: cs) ∉ typeWords →
        Speakable (.var (String.ofList (c :: cs)))
  | int {i : Int64} : 0 ≤ i → Speakable (.const (.number (.int i)))
  | string {s : String} :
    (∀ c ∈ s.toList, isPrintable c ∨ c = '\n' ∨ c = '\t') → Speakable (.const (.string s))
  | binary {left right : Expr} (op : Operator) :
    Speakable left → Speakable right → Speakable (.binary op.symbol left right)

namespace Lexical

open Element Grammar

/-- Elements that spell an expression: they have its text, are read in front of whatever keeps
apart from them, are reported nowhere and stand for an operand. -/
structure Spells (es : List Element) (e : Expr) : Prop where
  text : (es.flatMap Element.text).flatMap encodeChar = e.text
  readable : ∀ later, Readable later → Apart (later.flatMap Element.text) → Readable (es ++ later)
  flawless : ∀ x ∈ es, x.flaw? = none
  primary : Primary (es.filterMap (Element.token? 0)) e

/-- The token of a separator or bracket, wherever it stands. -/
def punctToken (c : Char) : Token := { kind := .punct, lexeme := String.ofList [c], line := 0 }

theorem token?_punct (c : Char) : token? 0 (.punct c) = some (punctToken c) := rfl

theorem token?_blank (c : Char) : token? 0 (.blank c) = none := rfl

theorem Spells.of_single {x : Element} {t : Token} {e : Expr}
    (htext : x.text.flatMap encodeChar = e.text) (htoken : x.token? 0 = some t)
    (hheads : ∀ rest, Apart rest → Heads x rest) (hflaw : x.flaw? = none)
    (hprimary : Primary [t] e) : Spells [x] e where
  text := by rw [List.flatMap_singleton, htext]
  readable later hlater hapart := .cons (hheads _ hapart) hlater
  flawless y hy := by rw [List.mem_singleton.mp hy, hflaw]
  primary := by
    rw [List.filterMap_cons_some htoken]
    exact hprimary

/-! ## Operands -/

theorem spells_var {c : Char} {cs : List Char} (hc : startsWord c = true)
    (hcs : ∀ d ∈ cs, continuesWord d = true) (hk : String.ofList (c :: cs) ∉ keywords)
    (ht : String.ofList (c :: cs) ∉ typeWords) :
    Spells [.word (c :: cs)] (.var (String.ofList (c :: cs))) :=
  .of_single (encode_ofList _).symm rfl (fun _ => .word hc hcs) rfl
    (.name (wordKind_eq (.identifier hk ht)))

private theorem digits_toDigits (n : Nat) : Digits (Nat.toDigits 10 n) := by
  refine digits_iff.mpr ⟨Nat.toDigits_ne_nil, fun c hc => ?_⟩
  have hdigit := Nat.isDigit_of_mem_toDigits (by decide) (Nat.le_refl 10) hc
  simpa [Element.isDigit, Char.isDigit, Char.le_def] using hdigit

private theorem decimal_toDigits (n : Nat) : decimal (Nat.toDigits 10 n) = n :=
  Nat.ofDigitChars_toDigits (by decide) (Nat.le_refl 10)

theorem spells_int {i : Int64} (h : 0 ≤ i) :
    Spells [.number (Nat.toDigits 10 i.toInt.toNat) none] (.const (.number (.int i))) := by
  have hnonneg : 0 ≤ i.toInt := Int64.le_iff_toInt_le.mp h
  have hlt : i.toInt.toNat < 2 ^ 63 := by
    have := i.toInt_lt
    omega
  have hfits : Value.fits (decimal (Nat.toDigits 10 i.toInt.toNat)) = true := by
    rw [fits_decimal_iff, ← decimal_eq_numeral, decimal_toDigits]
    exact hlt
  have hvalue : literalValue (Nat.toDigits 10 i.toInt.toNat) none = .int i := by
    have hint : (Int64.ofNat i.toInt.toNat).toInt = i.toInt := by
      rw [Int64.toInt_ofNat_of_lt hlt, Int.toNat_of_nonneg hnonneg]
    rw [literalValue, if_pos hfits, decimal_toDigits, Int64.toInt_inj.mp hint]
  have htext : toString i.toInt = String.ofList (Nat.toDigits 10 i.toInt.toNat) := by
    rw [Int.toString_eq_repr, Int.repr_eq_if, if_pos hnonneg, Nat.repr_eq_ofList_toDigits]
  let t : Token :=
    { kind := .number, lexeme := String.ofList (Nat.toDigits 10 i.toInt.toNat), line := 0,
      value := .int i }
  refine .of_single (t := t) ?_ ?_ (fun _ => .integer (digits_toDigits _)) ?_ (.number rfl)
  · rw [Expr.text, Constant.text, Value.text, htext, encode_ofList, Element.text]
  · rw [token?, hvalue]
    rfl
  · rw [flaw?, if_pos hfits]

/-- What stands between the quotes around a text that can be seen or escaped is read as it. -/
theorem content_escape {cs : List Char} (h : ∀ c ∈ cs, isPrintable c ∨ c = '\n' ∨ c = '\t') :
    Content (cs.flatMap (escape '"')) cs := by
  induction cs with
  | nil => exact .nil
  | cons c cs ih =>
    have hrest := ih fun d hd => h d (List.mem_cons_of_mem c hd)
    rw [List.flatMap_cons, escape]
    by_cases hc : c = '"' ∨ c = '\\'
    · rw [if_pos hc]
      exact hrest.guard hc
    · rw [if_neg hc]
      rw [not_or] at hc
      by_cases hp : isPrintable c = true
      · rw [if_pos hp]
        exact .plain hc.1 hc.2 hrest
      · rw [if_neg hp]
        rcases h c List.mem_cons_self with hp' | rfl | rfl
        · exact absurd hp' hp
        · exact .lineFeed hrest
        · exact .tab hrest

/-- The pieces of an encoded text are its characters. -/
theorem flatMap_escape_pieces (quote : Char) (s : String) :
    (pieces (encode s)).flatMap (Piece.escape quote) = s.toList.flatMap (escape quote) := by
  rw [encode]
  induction s.toList with
  | nil => rfl
  | cons c cs ih => rw [List.flatMap_cons, pieces_encodeChar_append, List.flatMap_cons, ih]; rfl

theorem spells_string {s : String}
    (h : ∀ c ∈ s.toList, isPrintable c ∨ c = '\n' ∨ c = '\t') :
    Spells [.quotation (s.toList.flatMap (escape '"')) true] (.const (.string s)) := by
  have hcontent := content_escape h
  refine .of_single ?_ rfl (fun _ _ => .string hcontent) rfl ?_
  · rw [Expr.text, Constant.text, quoted, enclose, flatMap_escape_pieces, encode_ofList,
      Element.text, if_pos rfl]
  · rw [hcontent.unescape_eq, String.ofList_toList]
    exact .string rfl

/-! ## Operations -/

private theorem symbol_mem_operators (op : Operator) : op.symbol.toList ∈ operators := by
  cases op <;> decide

private theorem joins_symbol (op : Operator) :
    Joins op.rank { kind := .operator, lexeme := op.symbol, line := 0 } :=
  ⟨rfl, op.symbol, by cases op <;> decide, rfl⟩

/-- The sign of an operator is read in front of a space. -/
theorem exists_sign (op : Operator) :
    ∃ x : Element, x.text.flatMap encodeChar = op.symbol ∧
      x.token? 0 = some { kind := .operator, lexeme := op.symbol, line := 0 } ∧
        x.flaw? = none ∧ ∀ rest, Apart rest → Heads x rest := by
  rcases mem_operators (symbol_mem_operators op) with ⟨c, hc, hsign⟩ | ⟨c, hc, hsign⟩
  · have hsymbol : op.symbol = String.ofList [c] := by rw [← hc, String.ofList_toList]
    rw [hsymbol]
    exact ⟨.operator c false, (encode_ofList _).symm, rfl, rfl, fun _ => .sign hsign⟩
  · have hsymbol : op.symbol = String.ofList [c, '='] := by rw [← hc, String.ofList_toList]
    rw [hsymbol]
    exact ⟨.operator c true, (encode_ofList _).symm, rfl, rfl, fun _ _ => .comparing hsign⟩

theorem Spells.binary {ls rs : List Element} {left right : Expr} (op : Operator)
    (hl : Spells ls left) (hr : Spells rs right) :
    ∃ es, Spells es (.binary op.symbol left right) := by
  obtain ⟨sign, htext, htoken, hflaw, hheads⟩ := exists_sign op
  let es := .punct '(' :: (ls ++ .blank ' ' :: sign :: .blank ' ' :: (rs ++ [.punct ')']))
  refine ⟨es, ?_, ?_, ?_, ?_⟩
  · have hopening : (Element.punct '(').text.flatMap encodeChar = encode "(" := by decide
    have hclosing : (Element.punct ')').text.flatMap encodeChar = encode ")" := by decide
    have hspace : (Element.blank ' ').text.flatMap encodeChar = encode " " := by decide
    simp only [es, List.flatMap_cons, List.flatMap_append, List.flatMap_nil, List.append_nil,
      hopening, hclosing, hspace, htext, hl.text, hr.text, Expr.text, List.append_assoc]
  · intro later hlater _
    have hclosing : Readable (.punct ')' :: later) := .cons (.punct (by decide)) hlater
    have hright := hr.readable _ hclosing (apart_cons (by decide) _)
    have hsign : Readable (sign :: .blank ' ' :: (rs ++ .punct ')' :: later)) :=
      .cons (hheads _ (apart_space _)) (.cons (.blank (by decide)) hright)
    have hleft := hl.readable _ (.cons (.blank (c := ' ') (by decide)) hsign) (apart_space _)
    have happend : es ++ later = .punct '(' ::
        (ls ++ .blank ' ' :: sign :: .blank ' ' :: (rs ++ .punct ')' :: later)) := by simp [es]
    rw [happend]
    exact .cons (.punct (by decide)) hleft
  · intro x hx
    simp only [es, List.mem_cons, List.mem_append, List.not_mem_nil, or_false] at hx
    rcases hx with rfl | hx | rfl | rfl | rfl | hx | rfl
    · rfl
    · exact hl.flawless x hx
    · rfl
    · exact hflaw
    · rfl
    · exact hr.flawless x hx
    · rfl
  · -- Between its brackets stands an operation of the rank of its sign.
    have hoperation := Operation.snoc ((Operation.primary hl.primary).mono (Nat.zero_le _))
      (joins_symbol op) ((Operation.primary hr.primary).mono (Nat.zero_le _))
    have hexpression := Expression.operation (hoperation.mono op.rank_lt_ranks)
    have htokens : es.filterMap (token? 0) = punctToken '(' ::
        (ls.filterMap (token? 0) ++ { kind := .operator, lexeme := op.symbol, line := 0 } ::
          rs.filterMap (token? 0) ++ [punctToken ')']) := by
      simp [es, List.filterMap_cons, htoken, token?_punct, token?_blank]
    rw [htokens]
    exact .bracket (by decide) hexpression (by decide)

/-- Every expression that has a text in the language is spelled by it. -/
theorem exists_spells {e : Expr} (h : e.Speakable) : ∃ es, Spells es e := by
  induction h with
  | var hc hcs hk ht => exact ⟨_, spells_var hc hcs hk ht⟩
  | int hi => exact ⟨_, spells_int hi⟩
  | string hs => exact ⟨_, spells_string hs⟩
  | binary op _ _ ihl ihr =>
    obtain ⟨ls, hl⟩ := ihl
    obtain ⟨rs, hr⟩ := ihr
    exact hl.binary op hr

/-! ## Statements -/

/-- The elements of a function in front of its only statement. -/
def opening : List Element :=
  [.word ['i', 'n', 't'], .blank ' ', .word ['m', 'a', 'i', 'n'], .punct '(', .punct ')',
    .blank ' ', .punct '\x7b', .blank ' ']

/-- The elements of a function behind its only statement. -/
def closing : List Element := [.punct ';', .blank ' ', .punct '\x7d']

theorem readable_closing : Readable closing :=
  .cons (.punct (by decide)) (.cons (.blank (by decide)) (.cons (.punct (by decide)) .nil))

theorem Readable.opening_append {es : List Element} (h : Readable es) :
    Readable (opening ++ es) := by
  have hint : ['n', 't'].all continuesWord = true := by decide
  have hmain : ['a', 'i', 'n'].all continuesWord = true := by decide
  have hbrace : Readable (.blank ' ' :: .punct '\x7b' :: .blank ' ' :: es) :=
    .cons (.blank (by decide)) (.cons (.punct (by decide)) (.cons (.blank (by decide)) h))
  have hbrackets : Readable (.punct '(' :: .punct ')' :: .blank ' ' :: .punct '\x7b' ::
      .blank ' ' :: es) :=
    .cons (.punct (by decide)) (.cons (.punct (by decide)) hbrace)
  have hname : Readable (.word ['m', 'a', 'i', 'n'] :: .punct '(' :: .punct ')' :: .blank ' ' ::
      .punct '\x7b' :: .blank ' ' :: es) :=
    .cons (.word (by decide) (List.all_eq_true.mp hmain) (apart_cons (by decide) _)) hbrackets
  exact .cons (.word (by decide) (List.all_eq_true.mp hint) (apart_space _))
    (.cons (.blank (by decide)) hname)

/-- A spelled expression is the only item of the function around it. -/
theorem Spells.functions {es : List Element} {e : Expr} (h : Spells es e) :
    Functions ((opening ++ (es ++ closing)).filterMap (token? 0))
      [.function "int" "main" [] [.expr e]] := by
  let type : Token := { kind := .type, lexeme := "int", line := 0 }
  let name : Token := { kind := .identifier, lexeme := "main", line := 0 }
  have hopening : opening.filterMap (token? 0) =
      [type, name, punctToken '(', punctToken ')', punctToken '\x7b'] := by decide
  have hclosing : closing.filterMap (token? 0) = [punctToken ';', punctToken '\x7d'] := by decide
  have hstatement : Statement (es.filterMap (token? 0) ++ [punctToken ';']) (.expr e) :=
    .expression (.operation ((Operation.primary h.primary).mono (Nat.zero_le _))) (by decide)
  have hitems : Items (es.filterMap (token? 0) ++ [punctToken ';']) [.expr e] := by
    simpa using Items.cons (.statement hstatement) .nil
  have hfunction : Function
      (type :: name :: punctToken '(' :: ([] ++ punctToken ')' :: punctToken '\x7b' ::
        (es.filterMap (token? 0) ++ [punctToken ';'] ++ [punctToken '\x7d'])))
      (.function type.lexeme name.lexeme [] [.expr e]) :=
    .intro rfl rfl (by decide) .none (by decide) (by decide) hitems (by decide)
  rw [List.filterMap_append, List.filterMap_append, hopening, hclosing]
  simpa [type, name] using Functions.cons hfunction .nil

theorem Spells.flawless_function {es : List Element} {e : Expr} (h : Spells es e) :
    ∀ x ∈ opening ++ (es ++ closing), x.flaw? = none := by
  have hopening : ∀ x ∈ opening, x.flaw? = none := by decide
  have hclosing : ∀ x ∈ closing, x.flaw? = none := by decide
  intro x hx
  rcases List.mem_append.mp hx with hx | hx
  · exact hopening x hx
  · rcases List.mem_append.mp hx with hx | hx
    · exact h.flawless x hx
    · exact hclosing x hx

theorem reportsFrom_of_flawless {es : List Element} (h : ∀ x ∈ es, x.flaw? = none) (line : Nat) :
    reportsFrom line es = [] := by
  induction es generalizing line with
  | nil => rfl
  | cons x es ih =>
    rw [reportsFrom_cons, h x List.mem_cons_self, ih fun y hy => h y (List.mem_cons_of_mem x hy)]
    rfl

/-- Readable elements whose tokens are derived are compiled to what is derived from them. -/
theorem Readable.compile_eq {es : List Element} {fs : List Node} (h : Readable es)
    (hfs : Functions (es.filterMap (token? 0)) fs) :
    compile ((es.flatMap Element.text).flatMap encodeChar) = .ok ⟨fs⟩ := by
  have hbefore : beforeEnd (lex ((es.flatMap Element.text).flatMap encodeChar)).tokens =
      tokensFrom 1 es := by
    rw [h.lex_eq, Parse.beforeEnd_append fun t ht => kind_of_mem_tokensFrom ht]
    exact List.append_nil _
  have hends : ∀ t ∈ es.filterMap (token? 0), t.kind ≠ .eof := by
    intro t ht
    obtain ⟨e, -, ht⟩ := List.mem_filterMap.mp ht
    exact kind_token? ht
  have hunplaced := Parse.functions_unplaced (tokensFrom 1 es)
  rw [unplaced_tokensFrom, Parse.functions_of_derived hfs hends] at hunplaced
  have hfunctions : Parse.functions (tokensFrom 1 es) = .ok fs := by
    cases hread : Parse.functions (tokensFrom 1 es) with
    | error fault =>
      rw [hread] at hunplaced
      cases hunplaced
    | ok fs' =>
      rw [hread] at hunplaced
      cases hunplaced
      rfl
  rw [compile, ← parse_beforeEnd, hbefore, parse, hfunctions]

end Lexical

/-- Reading undoes spelling. -/
theorem compile_text {e : Expr} (h : e.Speakable) :
    let source : Bytes := "int main() \x7b " ++ e.text ++ "; \x7d"
    compile source = .ok ⟨[.function "int" "main" [] [.expr e]]⟩ ∧
      (lex source).diagnostics = [] := by
  intro source
  obtain ⟨es, hes⟩ := Lexical.exists_spells h
  let all := Lexical.opening ++ (es ++ Lexical.closing)
  have hreadable : Lexical.Readable all :=
    (hes.readable _ Lexical.readable_closing (Lexical.apart_cons (by decide) _)).opening_append
  have hsource : source = (all.flatMap Element.text).flatMap encodeChar := by
    have hopening : (Lexical.opening.flatMap Element.text).flatMap encodeChar =
        encode "int main() \x7b " := by decide
    have hclosing : (Lexical.closing.flatMap Element.text).flatMap encodeChar =
        encode "; \x7d" := by decide
    rw [List.flatMap_append, List.flatMap_append, List.flatMap_append, List.flatMap_append,
      hes.text, hopening, hclosing, ← List.append_assoc]
  rw [hsource]
  refine ⟨hreadable.compile_eq hes.functions, ?_⟩
  rw [hreadable.lex_eq]
  exact Lexical.reportsFrom_of_flawless hes.flawless_function 1

/-- An operation with a looser one on its left and with a string that holds a quote, a backslash,
a line feed and the end of a comment. -/
theorem compile_text_nested :
    let e : Expr :=
      .binary "*" (.binary "<" (.var "returns") (.const (.number (.int 7))))
        (.const (.string "é \"\\\n*/"))
    let source : Bytes := "int main() \x7b " ++ e.text ++ "; \x7d"
    e.Speakable ∧ compile source = .ok ⟨[.function "int" "main" [] [.expr e]]⟩ ∧
      (lex source).diagnostics = [] := by
  intro e source
  have hletters : ['e', 't', 'u', 'r', 'n', 's'].all Element.continuesWord = true := by decide
  have hword : Expr.Speakable (.var "returns") :=
    @Expr.Speakable.var 'r' _ (by decide) (List.all_eq_true.mp hletters) (by decide) (by decide)
  have hseen : "é \"\\\n*/".toList.all (fun c => isPrintable c || c == '\n' || c == '\t') = true := by
    decide
  have hstring : Expr.Speakable (.const (.string "é \"\\\n*/")) := by
    refine .string fun c hc => ?_
    simpa [or_assoc] using List.all_eq_true.mp hseen c hc
  have he : e.Speakable := .binary .mul (.binary .lt hword (.int (by decide))) hstring
  exact ⟨he, compile_text he⟩

end MiniC
