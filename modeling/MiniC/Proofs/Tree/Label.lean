import MiniC.Proofs.Run.OneLine
import MiniC.Proofs.Run.WellBuilt
import MiniC.Proofs.Tree.Outline

/-!
# What labels tell

A label starts with a heading for the kind of its node, and no heading starts with
another one, so the kind of a node can be told from its label, and then the rest of
the label. The names of types end at a space. The labels of a compiled program
hold no line feed and do not start with a space, which makes its outline readable.
-/

namespace MiniC

open Text

/-! ## Texts in front of others -/

/-- Texts of which none starts with another. -/
def Text.PrefixFree (ws : List Bytes) : Prop := ∀ a ∈ ws, ∀ b ∈ ws, a <+: b → a = b

instance (ws : List Bytes) : Decidable (PrefixFree ws) :=
  inferInstanceAs (Decidable (∀ a ∈ ws, ∀ b ∈ ws, a <+: b → a = b))

/-- It can be told which of such texts stands in front. -/
theorem Text.PrefixFree.append_inj {ws : List Bytes} {a b rest rest' : Bytes} (h : PrefixFree ws)
    (ha : a ∈ ws) (hb : b ∈ ws) (heq : a ++ rest = b ++ rest') : a = b ∧ rest = rest' := by
  have hab : a = b := by
    have hprefix : b <+: a ++ rest := heq ▸ List.prefix_append b rest'
    rcases List.prefix_or_prefix_of_prefix (List.prefix_append a rest) hprefix with hp | hp
    · exact h a ha b hb hp
    · exact (h b hb a ha hp).symm
  subst hab
  exact ⟨rfl, List.append_cancel_left heq⟩

/-! ## Headings -/

/-- The kinds of nodes that labels tell apart. -/
inductive Heading where
  | missing
  | constant
  | variable
  | binary
  | assignment
  | call
  | program
  | function
  | block
  | declaration
  | return
  deriving DecidableEq

namespace Heading

/-- What the labels of a kind start with. -/
def text : Heading → String
  | .missing => "<nil>"
  | .constant => "Constant: "
  | .variable => "Identifier: "
  | .binary => "BinaryOp: "
  | .assignment => "Assignment: "
  | .call => "FuncCall: "
  | .program => "Program:"
  | .function => "FunctionDecl: "
  | .block => "CompoundStmt:"
  | .declaration => "Decl: "
  | .return => "Return:"

/-- All kinds. -/
def all : List Heading :=
  [.missing, .constant, .variable, .binary, .assignment, .call, .program, .function, .block,
    .declaration, .return]

theorem mem_all (h : Heading) : h ∈ all := by cases h <;> decide

theorem text_inj {h h' : Heading} (heq : encode h.text = encode h'.text) : h = h' := by
  have hall : ∀ h ∈ all, ∀ h' ∈ all, encode h.text = encode h'.text → h = h' := by decide
  exact hall h h.mem_all h' h'.mem_all heq

/-- The kind can be told from a label, and then what stands behind the heading. -/
theorem append_inj {h h' : Heading} {rest rest' : Bytes}
    (heq : encode h.text ++ rest = encode h'.text ++ rest') : h = h' ∧ rest = rest' := by
  have hfree : PrefixFree (all.map fun h => encode h.text) := by decide
  obtain ⟨htext, hrest⟩ := hfree.append_inj (List.mem_map_of_mem h.mem_all)
    (List.mem_map_of_mem h'.mem_all) heq
  exact ⟨text_inj htext, hrest⟩

/-- Behind a heading, a label is plain if it holds no line feed. -/
theorem plainLabel (h : Heading) {rest : Bytes} (hrest : Unbroken rest) :
    Outline.PlainLabel (encode h.text ++ rest) where
  unbroken := by
    rw [unbroken_append, unbroken_encode]
    exact ⟨by cases h <;> decide, hrest⟩
  head := by
    have hhead : ∃ b, (encode h.text).head? = some b ∧ b ≠ space := by
      cases h <;> exact ⟨_, rfl, by decide⟩
    obtain ⟨b, hb, hne⟩ := hhead
    rw [List.head?_append, hb, Option.some_or]
    exact fun heq => hne (Option.some.inj heq)

end Heading

/-- The kind of an expression. -/
def Expr.heading : Expr → Heading
  | .hole => .missing
  | .const _ => .constant
  | .var _ => .variable
  | .binary _ _ _ => .binary
  | .assign _ _ _ => .assignment
  | .call _ _ => .call

/-- What stands behind the heading of an expression. -/
def Expr.detail : Expr → Bytes
  | .hole => []
  | .const c => c.kindName ++ ", " ++ c.text
  | .var name => name
  | .binary op _ _ => op
  | .assign op _ _ => op
  | .call name _ => name

/-- The kind of a node. -/
def Node.heading : Node → Heading
  | .program _ => .program
  | .prototype _ _ _ => .function
  | .function _ _ _ _ => .function
  | .block _ => .block
  | .decl _ _ _ => .declaration
  | .ret _ => .return
  | .expr e => e.heading

/-- What stands behind the heading of a node. -/
def Node.detail : Node → Bytes
  | .prototype returnType name _ => returnType ++ " " ++ name
  | .function returnType name _ _ => returnType ++ " " ++ name
  | .decl type name _ => type ++ " " ++ name
  | .expr e => e.detail
  | _ => []

theorem Expr.label_eq (e : Expr) : e.label = encode e.heading.text ++ e.detail := by
  cases e with
  | hole => rfl
  | const c => simp [Expr.label, Expr.heading, Expr.detail, Heading.text]
  | _ => rfl

theorem Node.label_eq (n : Node) : n.label = encode n.heading.text ++ n.detail := by
  cases n with
  | expr e => exact e.label_eq
  | _ => simp [Node.label, Node.heading, Node.detail, Heading.text]

/-- Equal outlines tell the same kind, the same rest of the label and the same children. -/
theorem Node.outline_inj {n n' : Node} (h : n.outline = n'.outline) :
    n.heading = n'.heading ∧ n.detail = n'.detail ∧
      n.children.map Node.outline = n'.children.map Node.outline := by
  rw [n.outline_eq, n'.outline_eq, n.label_eq, n'.label_eq] at h
  obtain ⟨hlabel, hchildren⟩ := Outline.node.inj h
  obtain ⟨hheading, hdetail⟩ := Heading.append_inj hlabel
  exact ⟨hheading, hdetail, hchildren⟩

theorem Expr.outline_inj {e e' : Expr} (h : e.outline = e'.outline) :
    e.heading = e'.heading ∧ e.detail = e'.detail ∧
      e.children.map Expr.outline = e'.children.map Expr.outline := by
  have hchildren (e : Expr) :
      (Node.expr e).children.map Node.outline = e.children.map Expr.outline := by
    rw [Node.children, List.map_map]
    rfl
  have hnode := @Node.outline_inj (.expr e) (.expr e') h
  rwa [hchildren, hchildren] at hnode

/-! ## Names of types -/

/-- The name of a type of the language. -/
def IsType (type : Bytes) : Prop := ∃ word ∈ typeWords, type = encode word

theorem IsType.unbroken {type : Bytes} (h : IsType type) : Unbroken type := by
  obtain ⟨word, hword, rfl⟩ := h
  have hall : ∀ word ∈ typeWords, Unbroken (encode word) := by decide
  exact hall word hword

/-- The space behind a type tells it from the name that follows. -/
theorem IsType.append_inj {type type' name name' : Bytes} (h : IsType type) (h' : IsType type')
    (heq : type ++ encode " " ++ name = type' ++ encode " " ++ name') :
    type = type' ∧ name = name' := by
  obtain ⟨word, hword, rfl⟩ := h
  obtain ⟨word', hword', rfl⟩ := h'
  have hfree : PrefixFree (typeWords.map fun word => encode word ++ encode " ") := by decide
  obtain ⟨htype, hname⟩ := hfree.append_inj (List.mem_map_of_mem hword)
    (List.mem_map_of_mem hword') heq
  exact ⟨List.append_cancel_right htype, hname⟩

/-- A declaration has a type of the language. -/
def Node.TypedItem : Node → Prop
  | .decl type _ _ => IsType type
  | _ => True

/-- A function and its declarations have types of the language. -/
def Node.TypedFunction : Node → Prop
  | .function type _ _ items => IsType type ∧ ∀ n ∈ items, n.TypedItem
  | _ => True

/-- A token that names a type names one of the language. -/
def Token.Typed (t : Token) : Prop := t.kind = .type → IsType t.lexeme

namespace Lexical

theorem TokenText.typed {s rest : List Char} {t : Token} {flaw : Option Flaw}
    (h : TokenText s rest t flaw) : t.Typed := by
  intro hkind
  cases h with
  | word _ _ hword =>
    obtain rfl : _ = Kind.type := hkind
    cases hword with
    | type hword => exact ⟨_, hword, rfl⟩
  | _ => cases hkind

theorem typed_of_mem_tokens {source : Bytes} {t : Token} (h : t ∈ (lex source).tokens) :
    t.Typed := by
  obtain ⟨s, rest, flaw, htext⟩ | ⟨line, rfl⟩ := exists_tokenText h
  · exact htext.typed
  · exact nofun

end Lexical

namespace Grammar

theorem Item.typed {ts : List Token} {n : Node} (h : Item ts n) (hts : ∀ t ∈ ts, t.Typed) :
    n.TypedItem := by
  cases h with
  | declaration h =>
    cases h with
    | plain hkind _ _ => exact (List.forall_mem_cons.mp hts).1 hkind
    | initialized hkind _ _ _ _ => exact (List.forall_mem_cons.mp hts).1 hkind
  | statement h => cases h <;> trivial

theorem Items.typed {ts : List Token} {ns : List Node} (h : Items ts ns)
    (hts : ∀ t ∈ ts, t.Typed) : ∀ n ∈ ns, n.TypedItem := by
  induction h with
  | nil => exact List.forall_mem_nil _
  | cons hitem _ ih =>
    rw [List.forall_mem_append] at hts
    exact List.forall_mem_cons.mpr ⟨hitem.typed hts.1, ih hts.2⟩

theorem Function.typed {ts : List Token} {f : Node} (h : Function ts f)
    (hts : ∀ t ∈ ts, t.Typed) : f.TypedFunction := by
  cases h with
  | intro hkind _ _ _ _ _ hitems _ =>
    simp only [List.forall_mem_cons, List.forall_mem_append] at hts
    obtain ⟨htype, -, -, -, -, -, hts, -⟩ := hts
    exact ⟨htype hkind, hitems.typed hts⟩

theorem Functions.typed {ts : List Token} {fs : List Node} (h : Functions ts fs)
    (hts : ∀ t ∈ ts, t.Typed) : ∀ f ∈ fs, f.TypedFunction := by
  induction h with
  | nil => exact List.forall_mem_nil _
  | skip _ _ ih => exact ih (List.forall_mem_cons.mp hts).2
  | cons hf _ ih =>
    rw [List.forall_mem_append] at hts
    exact List.forall_mem_cons.mpr ⟨hf.typed hts.1, ih hts.2⟩

end Grammar

/-- The types in a compiled program are those of the language. -/
theorem Program.typed_of_compile {source : Bytes} {p : Program} (h : compile source = .ok p) :
    ∀ d ∈ p.decls, d.TypedFunction := by
  have htokens : ∀ t ∈ beforeEnd (lex source).tokens, t.Typed := fun t ht =>
    Lexical.typed_of_mem_tokens ((List.takeWhile_prefix _).subset ht)
  exact (Parse.parse_eq_ok_iff.mp h).typed htokens

/-! ## Readable outlines -/

theorem Constant.newline_not_mem_kindName (c : Constant) : '\n' ∉ c.kindName.toList := by
  rcases c with (i | f) | s | ⟨kind, i⟩ <;> simp [Constant.kindName, Value.kindName]

/-- Expressions whose names and signs hold no line feed have plain outlines. -/
theorem Expr.Inline.plain {e : Expr} (h : e.Inline) : e.outline.Plain := by
  induction h with
  | hole => exact .node (Heading.plainLabel .missing unbroken_nil) (List.forall_mem_nil _)
  | const c =>
    have hdetail : Unbroken (c.kindName ++ ", " ++ c.text) := by
      simp [c.newline_not_mem_kindName]
    rw [Expr.outline_eq, Expr.label_eq]
    exact .node (Heading.plainLabel .constant hdetail) (List.forall_mem_nil _)
  | var hname => exact .node (Heading.plainLabel .variable hname) (List.forall_mem_nil _)
  | binary hop _ _ ihl ihr => exact .node (Heading.plainLabel .binary hop) (by simp [ihl, ihr])
  | assign hop _ _ iht ihv => exact .node (Heading.plainLabel .assignment hop) (by simp [iht, ihv])
  | call hname _ ih =>
    rw [Expr.outline_eq, Expr.label_eq]
    exact .node (Heading.plainLabel .call hname) (List.forall_mem_map.mpr ih)

theorem Expr.Inline.plain_present {e : Expr} (h : e.Inline) :
    ∀ o ∈ (e.present.map Node.expr).map Node.outline, o.Plain := by
  cases e with
  | hole => exact List.forall_mem_nil _
  | _ => exact List.forall_mem_singleton.mpr h.plain

/-- The items of a compiled program have plain outlines. -/
theorem Node.WellBuiltItem.plain {n : Node} (hn : n.WellBuiltItem) (hi : n.Inline)
    (ht : n.TypedItem) : n.outline.Plain := by
  rw [n.outline_eq, n.label_eq]
  cases hn with
  | decl _ =>
    cases hi with
    | decl hname hinit =>
      have hdetail : Unbroken (_ ++ encode " " ++ _) :=
        unbroken_append.mpr ⟨unbroken_append.mpr ⟨IsType.unbroken ht, by decide⟩, hname⟩
      exact .node (Heading.plainLabel .declaration hdetail) hinit.plain_present
  | ret _ =>
    cases hi with
    | ret hvalue =>
      exact .node (Heading.plainLabel .return unbroken_nil) hvalue.plain_present
  | expr _ =>
    cases hi with
    | expr he =>
      rw [← Node.label_eq, ← Node.outline_eq]
      exact he.plain

/-- The functions of a compiled program have plain outlines. -/
theorem Node.WellBuiltFunction.plain {n : Node} (hn : n.WellBuiltFunction) (hi : n.Inline)
    (ht : n.TypedFunction) : n.outline.Plain := by
  rw [n.outline_eq, n.label_eq]
  cases hn with
  | @intro type name items hitems =>
    cases hi with
    | function hname hinline =>
      have hdetail : Unbroken (type ++ encode " " ++ name) :=
        unbroken_append.mpr ⟨unbroken_append.mpr ⟨IsType.unbroken ht.1, by decide⟩, hname⟩
      have hbody : (Node.block items).outline.Plain := by
        rw [Node.outline_eq, Node.label_eq]
        refine .node (Heading.plainLabel .block unbroken_nil) (List.forall_mem_map.mpr ?_)
        exact fun m hm => (hitems m hm).plain (hinline m hm) (ht.2 m hm)
      exact .node (Heading.plainLabel .function hdetail) (List.forall_mem_singleton.mpr hbody)

/-- The outline of a compiled program is plain. -/
theorem Program.plain_of_compile {source : Bytes} {p : Program} (h : compile source = .ok p) :
    p.node.outline.Plain := by
  have hbuilt : p.WellBuilt := Program.wellBuilt_of_parse h
  have htyped := Program.typed_of_compile h
  cases Program.inline_of_compile h with
  | program hinline =>
    rw [Program.node, Node.outline_eq, Node.label_eq]
    refine .node (Heading.plainLabel .program unbroken_nil) (List.forall_mem_map.mpr ?_)
    exact fun d hd => (hbuilt d hd).plain (hinline d hd) (htyped d hd)

end MiniC
