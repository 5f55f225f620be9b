import MiniC.Proofs.Parse.Soundness
import MiniC.Proofs.Run.Walk
import MiniC.Proofs.Text.Unbroken
import MiniC.Proofs.Token.Account

/-!
# Reports on one line

What is reported about a source and about the run of its program never holds a
line feed. Strings are quoted wherever they are reported; all other tokens are
written without a line feed, so the names and signs in a compiled tree are, and
from them the texts of its expressions. A run warns about and fails at nothing
but such expressions.
-/

namespace MiniC

open Text

/-! ## Sources -/

namespace Lexical

open Element

theorem readsAs_of_mem_split {cs : List Char} {e : Element} (h : e ∈ split cs) (line : Int) :
    ∃ rest, ReadsAs e rest line := by
  fun_induction split cs with
  | case1 => cases h
  | case2 c rest ih =>
    rcases List.mem_cons.mp h with rfl | h
    · exact ⟨_, readsAs_first c rest line⟩
    · exact ih h

theorem mem_of_mem_located {line line' : Nat} {e : Element} {es : List Element}
    (h : (line', e) ∈ located line es) : e ∈ es := by
  induction es generalizing line with
  | nil => cases h
  | cons x es ih =>
    rcases List.mem_cons.mp h with h | h
    · cases h
      exact List.mem_cons_self
    · exact List.mem_cons_of_mem x (ih h)

theorem Digits.newline_not_mem {s : List Char} (h : Digits s) : '\n' ∉ s := by
  intro hnewline
  have hdigit := (digits_iff.mp h).2 '\n' hnewline
  exact absurd hdigit (by decide)

/-- The texts of tokens hold no line feed unless they are strings. -/
theorem TokenText.unbroken_lexeme {s rest : List Char} {t : Token} {flaw : Option Flaw}
    (h : TokenText s rest t flaw) (hk : t.kind ≠ .string) : Unbroken t.lexeme := by
  rw [h.lexeme_eq hk, unbroken_encode, String.toList_ofList]
  cases h with
  | integer hs _ _ => exact hs.newline_not_mem
  | largeInteger hs _ => exact hs.newline_not_mem
  | floating hw hf =>
    have hwhole := hw.newline_not_mem
    have hfraction := hf.newline_not_mem
    simp [hwhole, hfraction]
  | @word c cs _ _ _ hc hcs _ =>
    intro hnewline
    exact absurd (continuesWord_of_mem hc hcs hnewline) (by decide)
  | string _ => exact absurd rfl hk
  | openString _ _ => exact absurd rfl hk
  | operator hs =>
    have hsigns : ∀ sign ∈ operators, '\n' ∉ sign := by decide
    exact hsigns _ hs
  | punct hs =>
    have hsigns : ∀ sign ∈ punctuators, '\n' ∉ sign := by decide
    exact hsigns _ hs

/-- Nothing that is reported about a token holds a line feed. -/
theorem TokenText.newline_not_mem_message {s rest : List Char} {t : Token} {f : Flaw}
    (h : TokenText s rest t (some f)) : '\n' ∉ f.message.toList := by
  cases h with
  | largeInteger hs _ =>
    dsimp only [Flaw.message]
    simp [hs.newline_not_mem]
  | openString _ _ => decide

theorem SkippedText.newline_not_mem_message {s rest : List Char} {f : Flaw}
    (h : SkippedText s rest (some f)) : '\n' ∉ f.message.toList := by
  cases h with
  | openComment _ => decide
  | unknown _ =>
    dsimp only [Flaw.message]
    simp

/-- A token of a source has a text there, or marks the end. -/
theorem exists_tokenText {source : Bytes} {t : Token} (h : t ∈ (lex source).tokens) :
    (∃ s rest flaw, TokenText s rest t flaw) ∨ ∃ line, t = endToken line := by
  rcases List.mem_append.mp h with h | h
  · obtain ⟨⟨line, e⟩, he, htoken⟩ := List.mem_filterMap.mp h
    obtain ⟨rest, ⟨u, hu, -, htext⟩ | ⟨hnone, -⟩⟩ :=
      readsAs_of_mem_split (mem_of_mem_located he) line
    · cases hu.symm.trans htoken
      exact .inl ⟨_, _, _, htext⟩
    · cases hnone.symm.trans htoken
  · exact .inr ⟨_, List.mem_singleton.mp h⟩

theorem unbroken_of_mem_tokens {source : Bytes} {t : Token} (h : t ∈ (lex source).tokens)
    (hk : t.kind ≠ .string) : Unbroken t.lexeme := by
  obtain ⟨s, rest, flaw, htext⟩ | ⟨line, rfl⟩ := exists_tokenText h
  · exact htext.unbroken_lexeme hk
  · exact unbroken_nil

theorem isLine_of_mem_diagnostics {source heading : Bytes} {d : Diagnostic}
    (h : d ∈ (lex source).diagnostics) (hheading : Unbroken heading) :
    IsLine (d.logLine heading) := by
  obtain ⟨⟨line, e⟩, he, hreport⟩ := List.mem_filterMap.mp h
  obtain ⟨f, hf, rfl⟩ := Option.map_eq_some_iff.mp hreport
  have hmessage : '\n' ∉ f.message.toList := by
    obtain ⟨rest, ⟨t, -, -, htext⟩ | ⟨-, htext⟩⟩ :=
      readsAs_of_mem_split (mem_of_mem_located he) line
    · rw [hf] at htext
      exact htext.newline_not_mem_message
    · rw [hf] at htext
      exact htext.newline_not_mem_message
  exact Diagnostic.isLine_logLine hheading (unbroken_encode.mpr (by decide))
    (unbroken_encode.mpr hmessage)

end Lexical

/-! ## Trees -/

/-- Expressions whose names and signs hold no line feed. -/
inductive Expr.Inline : Expr → Prop
  | hole : Inline .hole
  | const (c : Constant) : Inline (.const c)
  | var {name : Bytes} : Unbroken name → Inline (.var name)
  | binary {op : Bytes} {left right : Expr} :
    Unbroken op → Inline left → Inline right → Inline (.binary op left right)
  | assign {op : Bytes} {target value : Expr} :
    Unbroken op → Inline target → Inline value → Inline (.assign op target value)
  | call {name : Bytes} {args : List Expr} :
    Unbroken name → (∀ arg ∈ args, Inline arg) → Inline (.call name args)

/-- Nodes whose names and signs hold no line feed. -/
inductive Node.Inline : Node → Prop
  | program {decls : List Node} : (∀ n ∈ decls, Inline n) → Inline (.program decls)
  | function {type name : Bytes} {params items : List Node} :
    Unbroken name → (∀ n ∈ items, Inline n) → Inline (.function type name params items)
  | decl {type name : Bytes} {init : Expr} :
    Unbroken name → init.Inline → Inline (.decl type name init)
  | ret {value : Expr} : value.Inline → Inline (.ret value)
  | expr {e : Expr} : e.Inline → Inline (.expr e)

private theorem Expr.argTexts_cons (arg : Expr) (rest : List Expr) :
    Expr.argTexts (arg :: rest) =
      (if arg.isHole then encode "<nil>" else arg.text) :: Expr.argTexts rest := by
  cases arg <;> rfl

mutual

theorem Expr.Inline.unbroken_text : {e : Expr} → e.Inline → Unbroken e.text
  | .hole, _ => by simp [Expr.text]
  | .const c, _ => by simp [Expr.text]
  | .var name, .var h => by simpa [Expr.text] using h
  | .binary op left right, .binary hop hl hr => by
    simp [Expr.text, hop, hl.unbroken_text, hr.unbroken_text]
  | .assign op target value, .assign hop ht hv => by
    simp [Expr.text, hop, ht.unbroken_text, hv.unbroken_text]
  | .call name args, .call hn ha => by
    have hspace : Unbroken [space] := by decide
    have hargs := unbroken_intercalate hspace (Expr.unbroken_argTexts args ha)
    simp [Expr.text, hn, hargs]

theorem Expr.unbroken_argTexts : (args : List Expr) → (∀ arg ∈ args, arg.Inline) →
    ∀ w ∈ Expr.argTexts args, Unbroken w
  | [], _ => by simp [Expr.argTexts]
  | arg :: rest, h => by
    obtain ⟨harg, hrest⟩ := List.forall_mem_cons.mp h
    have htail := Expr.unbroken_argTexts rest hrest
    rw [Expr.argTexts_cons, List.forall_mem_cons]
    refine ⟨?_, htail⟩
    split
    · simp
    · exact harg.unbroken_text

end

/-- Tokens that are written without a line feed, unless they are strings. -/
def Token.Inline (t : Token) : Prop := t.kind ≠ .string → Unbroken t.lexeme

namespace Grammar

private theorem unbroken_of_kind {t : Token} {k : Kind} (h : t.Inline) (ht : t.kind = k)
    (hk : k ≠ .string) : Unbroken t.lexeme :=
  h (ht ▸ hk)

mutual

theorem Expression.inline {ts : List Token} {e : Expr} :
    Expression ts e → (∀ t ∈ ts, t.Inline) → e.Inline
  | .operation h, hts => h.inline hts
  | .assignment hl _ hr, hts => by
    rw [List.forall_mem_append, List.forall_mem_cons] at hts
    exact .assign (by decide) (hl.inline hts.1) (hr.inline hts.2.2)

theorem Operation.inline {rank : Nat} {ts : List Token} {e : Expr} :
    Operation rank ts e → (∀ t ∈ ts, t.Inline) → e.Inline
  | .primary h, hts => h.inline hts
  | .chain h hl, hts => by
    rw [List.forall_mem_append] at hts
    exact hl.inline hts.2 (h.inline hts.1)

theorem Links.inline {rank : Nat} {ts : List Token} {left e : Expr} :
    Links rank left ts e → (∀ t ∈ ts, t.Inline) → left.Inline → e.Inline
  | .nil, _, hleft => hleft
  | .cons hj hr hl, hts, hleft => by
    rw [List.forall_mem_cons, List.forall_mem_append] at hts
    have hsign := unbroken_of_kind hts.1 hj.1 (by decide)
    exact hl.inline hts.2.2 (.binary hsign hleft (hr.inline hts.2.1))

theorem Primary.inline {ts : List Token} {e : Expr} :
    Primary ts e → (∀ t ∈ ts, t.Inline) → e.Inline
  | .number _, _ => .const _
  | .string _, _ => .const _
  | .name ht, hts => .var (unbroken_of_kind (List.forall_mem_singleton.mp hts) ht (by decide))
  | .call ht _ h _, hts => by
    rw [List.forall_mem_cons, List.forall_mem_cons, List.forall_mem_append] at hts
    exact .call (unbroken_of_kind hts.1 ht (by decide)) (h.inline hts.2.2.1)
  | .bracket _ h _, hts => by
    rw [List.forall_mem_cons, List.forall_mem_append] at hts
    exact h.inline hts.2.1

theorem Arguments.inline {ts : List Token} {args : List Expr} :
    Arguments ts args → (∀ t ∈ ts, t.Inline) → ∀ arg ∈ args, arg.Inline
  | .none, _ => List.forall_mem_nil _
  | .some h, hts => h.inline hts

theorem ArgumentList.inline {ts : List Token} {args : List Expr} :
    ArgumentList ts args → (∀ t ∈ ts, t.Inline) → ∀ arg ∈ args, arg.Inline
  | .last h, hts => List.forall_mem_singleton.mpr (h.inline hts)
  | .more h _ hs, hts => by
    rw [List.forall_mem_append, List.forall_mem_cons] at hts
    exact List.forall_mem_cons.mpr ⟨h.inline hts.1, hs.inline hts.2.2⟩

end

theorem Item.inline {ts : List Token} {n : Node} (h : Item ts n) (hts : ∀ t ∈ ts, t.Inline) :
    n.Inline := by
  cases h with
  | declaration h =>
    cases h with
    | plain _ hn _ =>
      simp only [List.forall_mem_cons] at hts
      exact .decl (unbroken_of_kind hts.2.1 hn (by decide)) .hole
    | initialized _ hn _ hinit _ =>
      simp only [List.forall_mem_cons, List.forall_mem_append] at hts
      exact .decl (unbroken_of_kind hts.2.1 hn (by decide)) (hinit.inline hts.2.2.2.1)
  | statement h =>
    cases h with
    | bareReturn => exact .ret .hole
    | valueReturn _ hvalue _ =>
      rw [List.forall_mem_cons, List.forall_mem_append] at hts
      exact .ret (hvalue.inline hts.2.1)
    | expression he _ =>
      rw [List.forall_mem_append] at hts
      exact .expr (he.inline hts.1)

theorem Items.inline {ts : List Token} {ns : List Node} (h : Items ts ns)
    (hts : ∀ t ∈ ts, t.Inline) : ∀ n ∈ ns, n.Inline := by
  induction h with
  | nil => exact List.forall_mem_nil _
  | cons hitem _ ih =>
    rw [List.forall_mem_append] at hts
    exact List.forall_mem_cons.mpr ⟨hitem.inline hts.1, ih hts.2⟩

theorem Function.inline {ts : List Token} {f : Node} (h : Function ts f)
    (hts : ∀ t ∈ ts, t.Inline) : f.Inline := by
  cases h with
  | intro _ hn _ _ _ _ hitems _ =>
    simp only [List.forall_mem_cons, List.forall_mem_append] at hts
    obtain ⟨-, hname, -, -, -, -, hts, -⟩ := hts
    exact .function (unbroken_of_kind hname hn (by decide)) (hitems.inline hts)

theorem Functions.inline {ts : List Token} {fs : List Node} (h : Functions ts fs)
    (hts : ∀ t ∈ ts, t.Inline) : ∀ f ∈ fs, f.Inline := by
  induction h with
  | nil => exact List.forall_mem_nil _
  | skip _ _ ih => exact ih (List.forall_mem_cons.mp hts).2
  | cons hf _ ih =>
    rw [List.forall_mem_append] at hts
    exact List.forall_mem_cons.mpr ⟨hf.inline hts.1, ih hts.2⟩

end Grammar

/-- The names and signs in a compiled program hold no line feed. -/
theorem Program.inline_of_compile {source : Bytes} {p : Program} (h : compile source = .ok p) :
    p.node.Inline := by
  have htokens : ∀ t ∈ beforeEnd (lex source).tokens, t.Inline := by
    intro t ht hk
    exact Lexical.unbroken_of_mem_tokens ((List.takeWhile_prefix _).subset ht) hk
  exact .program ((Parse.parse_eq_ok_iff.mp h).inline htokens)

/-! ## Runs -/

/-- The warnings of a state are single lines. -/
def State.Inline (s : State) : Prop := ∀ w ∈ s.warnings, Unbroken w.message

theorem State.Inline.warn {s : State} (hs : s.Inline) {w : Warning}
    (h : Unbroken w.message) : (s.warn w).Inline :=
  List.forall_mem_append.mpr ⟨hs, List.forall_mem_singleton.mpr h⟩

/-- The parts of the report of a failure are single lines. -/
structure Failure.Inline (f : Failure) : Prop where
  path : ∀ c ∈ f.path, Unbroken c.text
  operation : Unbroken f.operation.text

theorem Cause.unbroken_message (c : Cause) : Unbroken c.message := by
  cases c <;> simp [Cause.message]

theorem Failure.Inline.unbroken_message {f : Failure} (h : f.Inline) : Unbroken f.message := by
  have hcolon : Unbroken Failure.colon := by decide
  refine unbroken_intercalate hcolon fun part hpart => ?_
  simp only [Failure.parts, List.mem_append, List.mem_map, List.mem_singleton] at hpart
  rcases hpart with (⟨c, hc, rfl⟩ | rfl) | rfl
  · exact h.path c hc
  · exact h.operation
  · exact f.cause.unbroken_message

namespace Run

variable {α β : Type}

/-- A computation that warns and fails on single lines only. -/
structure Inline (x : Run α) : Prop where
  ok : ∀ {s t : State} {a : α}, s.Inline → x s = .ok a t → t.Inline
  error : ∀ {s t : State} {f : Failure}, s.Inline → x s = .error f t → f.Inline ∧ t.Inline

namespace Inline

variable {x : Run α}

/-- A computation that cannot fail. -/
theorem of_ok (h : ∀ s : State, s.Inline → ∃ a t, x s = .ok a t ∧ t.Inline) : Inline x where
  ok := by
    intro s t a hs hx
    obtain ⟨b, u, hb, hu⟩ := h s hs
    cases hb.symm.trans hx
    exact hu
  error := by
    intro s t f hs hx
    obtain ⟨b, u, hb, -⟩ := h s hs
    cases hb.symm.trans hx

/-- A computation that cannot fail and raises no warning. -/
theorem of_warnings (h : ∀ s : State, ∃ a t, x s = .ok a t ∧ t.warnings = s.warnings) :
    Inline x := by
  refine .of_ok fun s hs => ?_
  obtain ⟨a, t, hx, hwarnings⟩ := h s
  exact ⟨a, t, hx, fun w hw => hs w (hwarnings ▸ hw)⟩

theorem pure (a : α) : Inline (Pure.pure a) := .of_warnings fun s => ⟨a, s, rfl, rfl⟩

theorem bind {following : α → Run β} (hx : Inline x) (hf : ∀ a, Inline (following a)) :
    Inline (x >>= following) where
  ok := by
    intro s t b hs h
    rw [bind_apply] at h
    split at h
    · rename_i a u hu
      exact (hf a).ok (hx.ok hs hu) h
    · cases h
  error := by
    intro s t f hs h
    rw [bind_apply] at h
    split at h
    · rename_i a u hu
      exact (hf a).error (hx.ok hs hu) h
    · rename_i g u hu
      cases h
      exact hx.error hs hu

theorem within {c : Context} (hc : Unbroken c.text) (hx : Inline x) : Inline (Run.within c x) where
  ok := by
    intro s t a hs h
    unfold Run.within at h
    split at h
    · rename_i hx'
      cases h
      exact hx.ok hs hx'
    · cases h
  error := by
    intro s t f hs h
    unfold Run.within at h
    split at h
    · cases h
    · rename_i g u hx'
      cases h
      obtain ⟨hg, hu⟩ := hx.error hs hx'
      exact ⟨⟨List.forall_mem_cons.mpr ⟨hc, hg.path⟩, hg.operation⟩, hu⟩

theorem warn {w : Warning} (h : Unbroken w.message) : Inline (Run.warn w) :=
  .of_ok fun s hs => ⟨.zero, s.warn w, rfl, hs.warn h⟩

theorem onStore (f : Store → α × Store) : Inline (Run.onStore f) :=
  .of_warnings fun _ => ⟨_, _, rfl, rfl⟩

theorem operate {op : Bytes} {left right : Expr} (h : (Expr.binary op left right).Inline)
    (x y : Value) : Inline (Run.operate op left right x y) where
  ok := by
    intro s t a hs hx
    rw [Run.operate_apply] at hx
    split at hx
    · cases hx
      exact hs
    · cases hx
  error := by
    intro s t f hs hx
    rw [Run.operate_apply] at hx
    split at hx
    · cases hx
    · cases hx
      exact ⟨⟨List.forall_mem_nil _, h.unbroken_text⟩, hs⟩

end Inline

end Run

private theorem State.Inline.call {s : State} (hs : s.Inline) {name : Bytes} {args : List Expr}
    (h : ∀ arg ∈ args, arg.Inline) : (s.call name args).Inline := by
  unfold State.call
  split
  · rename_i format arg rest
    have harg : arg.Inline := h arg (List.mem_cons_of_mem format List.mem_cons_self)
    split
    · split
      · exact hs
      · exact hs.warn (by simp [Warning.message, harg.unbroken_text])
    · exact hs
  · exact hs

/-- Evaluating an expression without line feeds reports nothing with one. -/
theorem Expr.Inline.eval {e : Expr} (h : e.Inline) : Run.Inline e.eval := by
  induction h with
  | hole => exact .warn (by simp [Warning.message])
  | const c =>
    cases c with
    | number v => exact .pure v
    | string s => exact .warn (by simp [Warning.message])
    | other kind i => exact .warn (by simp [Warning.message])
  | @var name _ => exact .of_warnings fun s => ⟨s.store.lookup name, s, rfl, rfl⟩
  | binary hop hl hr ihl ihr =>
    rw [Expr.eval_binary]
    refine ihl.bind fun x => ihr.bind fun y => ?_
    exact .operate (.binary hop hl hr) x y
  | assign _ ht _ _ ihv =>
    -- An assignment to anything but a variable only warns, with the text of its target.
    have htarget := ht.unbroken_text
    cases ht with
    | var hname =>
      rw [Expr.eval]
      refine (ihv.within ?_).bind fun v => .onStore _
      simpa [Context.text] using hname
    | _ => exact .warn (by simp [Warning.message, htarget])
  | @call name args _ ha _ => exact .of_ok fun s hs => ⟨.zero, s.call name args, rfl, hs.call ha⟩

private theorem Node.inline_decl {type name : Bytes} {init : Expr} (hn : Unbroken name)
    (h : init.Inline) : Run.Inline (Node.decl type name init).exec := by
  by_cases hhole : init = .hole
  · subst hhole
    exact .of_warnings fun _ => ⟨(), _, rfl, rfl⟩
  · rw [Node.exec]
    · refine (h.eval.within ?_).bind fun v => (.bind (.onStore _) fun _ => .pure ())
      simpa [Context.text] using hn
    · exact hhole

private theorem Node.inline_ret {value : Expr} (h : value.Inline) :
    Run.Inline (Node.ret value).exec := by
  by_cases hhole : value = .hole
  · subst hhole
    exact .of_warnings fun _ => ⟨(), _, rfl, rfl⟩
  · rw [Node.exec]
    · exact h.eval.bind fun v => .of_warnings fun _ => ⟨(), _, rfl, rfl⟩
    · exact hhole

mutual

theorem Node.Inline.exec : {n : Node} → n.Inline → Run.Inline n.exec
  | .program decls, .program h => by
    rw [Node.exec]
    exact Node.inline_execAll decls h
  | .function type name params items, .function hn h => by
    rw [Node.exec]
    split
    · refine (Node.inline_execAll items h).within ?_
      simpa [Context.text] using hn
    · exact .pure ()
  | .decl type name init, .decl hn h => Node.inline_decl hn h
  | .ret value, .ret h => Node.inline_ret h
  | .expr e, .expr h => by
    rw [Node.exec]
    exact h.eval.bind fun _ => .pure ()

theorem Node.inline_execAll : (ns : List Node) → (∀ n ∈ ns, n.Inline) →
    Run.Inline (Node.execAll ns)
  | [], _ => .pure ()
  | n :: rest, h => by
    obtain ⟨hn, hrest⟩ := List.forall_mem_cons.mp h
    rw [Node.execAll]
    exact hn.exec.bind fun _ => Node.inline_execAll rest hrest

end

/-- The warnings of a compiled program are single lines, and so is its failure if it has one. -/
theorem Program.inline_run {source : Bytes} {p : Program} (h : compile source = .ok p) :
    p.run.state.Inline ∧ ∀ f, p.run.failure = some f → f.Inline := by
  have hexec := (Program.inline_of_compile h).exec
  have hinitial : State.initial.Inline := List.forall_mem_nil _
  unfold Program.run Node.run
  cases hrun : p.node.exec .initial with
  | ok a t => exact ⟨hexec.ok hinitial hrun, nofun⟩
  | error g t =>
    obtain ⟨hg, ht⟩ := hexec.error hinitial hrun
    refine ⟨ht, ?_⟩
    rintro f ⟨⟩
    exact hg

theorem Program.isLine_of_mem_warnings {source heading : Bytes} {p : Program} {w : Warning}
    (h : compile source = .ok p) (hw : w ∈ p.run.state.warnings) (hheading : Unbroken heading) :
    IsLine (w.diagnostic.logLine heading) :=
  Diagnostic.isLine_logLine hheading (unbroken_encode.mpr (by decide))
    ((Program.inline_run h).1 w hw)

end MiniC
