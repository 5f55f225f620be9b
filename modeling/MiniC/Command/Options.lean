import MiniC.Text.Quoted

/-!
# Command line options

Options come first on the command line, with one dash or two; a value follows an
equals sign. Options end at the first argument that is none, or behind a double
dash. The first bad option ends the reading.
-/

namespace MiniC.Command

open Text

/-- What the options of the evaluating command decide. -/
structure Options where
  /-- List the tokens. -/
  tokens : Bool := false
  /-- Show the outline of the tree. -/
  ast : Bool := true
  /-- Keep warnings to oneself. -/
  quiet : Bool := false
  deriving DecidableEq, Repr

/-- Why options cannot be taken. -/
inductive OptionFault where
  /-- The usage was asked for. -/
  | help
  /-- The argument has no option name. -/
  | malformed (arg : Bytes)
  /-- There is no option of this name. -/
  | unknown (name : Bytes)
  /-- The value is neither true nor false. -/
  | notBoolean (name value : Bytes)
  deriving DecidableEq, Repr

/-- What is reported about a fault; nothing for a call for help. -/
def OptionFault.message? : OptionFault → Option Bytes
  | .help => none
  | .malformed arg => some ("bad flag syntax: " ++ arg)
  | .unknown name => some ("flag provided but not defined: -" ++ name)
  | .notBoolean name value =>
    some ("invalid boolean value " ++ quoted value ++ " for -" ++ name ++ ": parse error")

/-- The spellings of true. -/
def trueWords : List Bytes := ["1", "t", "T", "TRUE", "true", "True"]

/-- The spellings of false. -/
def falseWords : List Bytes := ["0", "f", "F", "FALSE", "false", "False"]

/-- The truth value that a text spells. -/
def boolean? (value : Bytes) : Option Bool :=
  if trueWords.contains value then some true
  else if falseWords.contains value then some false
  else none

/-- Set the option of a given name. -/
def Options.set? (o : Options) (name : Bytes) (value : Bool) : Option Options :=
  if name = "tokens" then some { o with tokens := value }
  else if name = "ast" then some { o with ast := value }
  else if name = "q" then some { o with quiet := value }
  else none

/-- The byte that starts an option. -/
def dash : UInt8 := 0x2D

/-- The byte between the name of an option and its value. -/
def equalsSign : UInt8 := 0x3D

/-- The text of an option behind its dashes; none if the argument is no option. -/
def optionText? : Bytes → Option Bytes
  | a :: b :: rest =>
    if a = dash then some (if b = dash then rest else b :: rest) else none
  | _ => none

/-- Split the text of an option at the first equals sign behind its first byte. -/
def splitValue : Bytes → Bytes × Option Bytes
  | [] => ([], none)
  | a :: rest =>
    (a :: rest.takeWhile (· != equalsSign),
      match rest.dropWhile (· != equalsSign) with
      | [] => none
      | _ :: value => some value)

/-- Take one option, given the whole argument and its text behind the dashes. -/
def Options.take (o : Options) (arg text : Bytes) : Except OptionFault Options :=
  if text.head? = none ∨ text.head? = some dash ∨ text.head? = some equalsSign then
    .error (.malformed arg)
  else
    match splitValue text with
    | (name, value) =>
      if (o.set? name true).isNone then
        if name = "help" ∨ name = "h" then .error .help
        else .error (.unknown name)
      else
        match boolean? (value.getD "true") with
        | some b => .ok ((o.set? name b).getD o)
        | none => .error (.notBoolean name (value.getD []))

/-- Take the options from the front of the arguments; the other arguments are left. -/
def Options.read (o : Options) : List Bytes → Except OptionFault (Options × List Bytes)
  | [] => .ok (o, [])
  | arg :: rest =>
    match optionText? arg with
    | none => .ok (o, arg :: rest)
    | some text =>
      if arg = [dash, dash] then .ok (o, rest)
      else
        match o.take arg text with
        | .error fault => .error fault
        | .ok o => o.read rest

end MiniC.Command
