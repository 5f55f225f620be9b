import MiniC.Text.Column
import MiniC.Value

/-!
# Stores

A store is the one flat table of a run's variables. A variable enters it when it
is first declared or assigned; once it has a declared type, every value written
to it is coerced to that type, and without one by the rule for integer types.
Reading a variable that was never written gives integer zero. Variables are
kept in the order of their names.
-/

namespace MiniC

open Text

/-- A variable of a store. -/
structure Binding where
  /-- The name of the variable. -/
  name : Bytes
  /-- Its declared type, if it was declared. -/
  type : Option Bytes
  /-- Its value. -/
  value : Value
  deriving DecidableEq

/-- The variables of a run, by ascending name. -/
structure Store where
  /-- One binding for each variable. -/
  bindings : List Binding
  deriving DecidableEq

/-- Put a binding into its place, replacing the one of the same name. -/
def Binding.insert (b : Binding) : List Binding → List Binding
  | [] => [b]
  | c :: rest =>
    if c.name < b.name then c :: b.insert rest
    else if c.name = b.name then b :: rest
    else b :: c :: rest

namespace Store

/-- The store of a fresh run. -/
def empty : Store := ⟨[]⟩

/-- The binding of a name. -/
def find? (s : Store) (name : Bytes) : Option Binding :=
  s.bindings.find? (·.name == name)

/-- The value of a variable, zero if it was never written. -/
def lookup (s : Store) (name : Bytes) : Value :=
  ((s.find? name).map Binding.value).getD .zero

/-- The declared type of a variable. -/
def typeOf? (s : Store) (name : Bytes) : Option Bytes :=
  (s.find? name).bind Binding.type

/-- The names of all variables, ascending. -/
def names (s : Store) : List Bytes := s.bindings.map Binding.name

/-- Store a binding. -/
def put (s : Store) (b : Binding) : Store := ⟨b.insert s.bindings⟩

/-- Declare a variable and store a value in it; returns what is stored. A further
declaration replaces type and value. -/
def declare (s : Store) (name type : Bytes) (v : Value) : Value × Store :=
  let stored := v.coerce type
  (stored, s.put ⟨name, some type, stored⟩)

/-- Declare a variable without a value: it holds integer zero, whatever its type. -/
def declareZero (s : Store) (name type : Bytes) : Value × Store :=
  (.zero, s.put ⟨name, some type, .zero⟩)

/-- The type name that stands for no declared type: its rule is that of the integer types. -/
def untyped : Bytes := []

/-- Store a value in a variable; returns what is stored. -/
def assign (s : Store) (name : Bytes) (v : Value) : Value × Store :=
  let type := s.typeOf? name
  let stored := v.coerce (type.getD untyped)
  (stored, s.put ⟨name, type, stored⟩)

private theorem find?_insert_self (b : Binding) (bs : List Binding) :
    (b.insert bs).find? (·.name == b.name) = some b := by
  induction bs with
  | nil => simp [Binding.insert]
  | cons c rest ih =>
    unfold Binding.insert
    split
    · rename_i h
      have hne : c.name ≠ b.name := fun he => List.lt_irrefl _ (he ▸ h)
      simp [hne, ih]
    · split <;> simp

private theorem find?_insert_of_ne {b : Binding} {name : Bytes} (h : b.name ≠ name)
    (bs : List Binding) :
    (b.insert bs).find? (·.name == name) = bs.find? (·.name == name) := by
  induction bs with
  | nil => simp [Binding.insert, h]
  | cons c rest ih =>
    unfold Binding.insert
    split
    · simp only [List.find?_cons, ih]
    · split
      · rename_i he
        have hc : c.name ≠ name := he ▸ h
        simp [h, hc]
      · simp [h]

/-- A stored binding is found under its name. -/
theorem find?_put_self (s : Store) (b : Binding) : (s.put b).find? b.name = some b :=
  find?_insert_self b s.bindings

/-- Storing a binding changes nothing for other names. -/
theorem find?_put_of_ne (s : Store) {b : Binding} {name : Bytes} (h : b.name ≠ name) :
    (s.put b).find? name = s.find? name :=
  find?_insert_of_ne h s.bindings

/-- The line of a variable in a report. -/
def bindingLine (b : Binding) : Bytes :=
  "  " ++ column 16 b.name ++ " " ++ column 7 (b.type.getD "?") ++ " " ++
    b.value.text ++ "\n"

/-- A store as text: a heading and a line for each variable. -/
def text (s : Store) : Bytes :=
  "Environment\n" ++ s.bindings.flatMap bindingLine

end Store

end MiniC
