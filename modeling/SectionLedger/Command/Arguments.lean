import SectionLedger.Display.Basic

/-!
# Command-line arguments

The arguments of a command are positional ones, and options given by name.  An option is written
`--name value` or `--name=value`, or with its letter as `-n value`, `-n=value` or `-nvalue`; a value
that is an argument of its own must not look like an option.  After `--` every argument is
positional.  No option may be given twice.
-/

namespace SectionLedger

/-- An option of a command. -/
structure Flag where
  name : String
  letter : Option Char := none
  /-- Whether a value belongs to the option. -/
  hasValue : Bool := true
  deriving DecidableEq, Repr

/-- The arguments of a command. -/
structure Arguments where
  /-- The options given, with their values. -/
  options : List (String × String)
  positional : List String
  deriving DecidableEq, Repr

/-- What one argument is. -/
inductive Argument where
  | positional (text : String)
  /-- An option without a value, or with one in the same argument. -/
  | complete (name value : String)
  /-- An option whose value is the next argument. -/
  | awaiting (name : String)
  /-- Nothing that the command knows. -/
  | unknown
  deriving DecidableEq, Repr

namespace Argument

/-- Whether a text looks like an option. -/
def looksLikeOption (s : List Char) : Bool := s.head? == some '-' && s != ['-']

/-- An option that is known, and the value in the same argument, if there is one. -/
def ofFlag (flag : Option Flag) (value : Option (List Char)) : Argument :=
  match flag, value with
  | none, _ => .unknown
  | some flag, none => if flag.hasValue then .awaiting flag.name else .complete flag.name ""
  | some flag, some value =>
    if flag.hasValue then .complete flag.name (String.ofList value) else .unknown

/-- The value that follows the letter of an option in the same argument. -/
def letterValue : List Char → Option (List Char)
  | [] => none
  | '=' :: value => some value
  | value => some value

/-- What an argument is, given the options of the command. -/
def read (flags : List Flag) : List Char → Argument
  | '-' :: '-' :: s =>
    let name := String.ofList (s.takeWhile (· ≠ '='))
    ofFlag (flags.find? fun flag => flag.name == name) (s.dropWhile (· ≠ '=')).tail?
  | '-' :: letter :: s =>
    ofFlag (flags.find? fun flag => flag.letter == some letter) (letterValue s)
  | s => .positional (String.ofList s)

end Argument

namespace Arguments

/-- The arguments before any is read. -/
def empty : Arguments := ⟨[], []⟩

/-- Adds an option, unless it has been given. -/
def give (a : Arguments) (name value : String) : Option Arguments :=
  if (a.options.lookup name).isSome then none
  else some { a with options := a.options ++ [(name, value)] }

/-- Adds arguments to those that have been read; `awaiting` is the option whose value is due. -/
def readFrom (flags : List Flag) (a : Arguments) :
    (awaiting : Option String) → List String → Option Arguments
  | none, [] => some a
  | some _, [] => none
  | some name, value :: rest =>
    if Argument.looksLikeOption value.toList then none
    else do readFrom flags (← a.give name value) none rest
  | none, "--" :: rest => some { a with positional := a.positional ++ rest }
  | none, argument :: rest =>
    match Argument.read flags argument.toList with
    | .positional text => readFrom flags { a with positional := a.positional ++ [text] } none rest
    | .complete name value => do readFrom flags (← a.give name value) none rest
    | .awaiting name => readFrom flags a (some name) rest
    | .unknown => none

/-- The arguments of a command with certain options. -/
def read (flags : List Flag) (arguments : List String) : Option Arguments :=
  readFrom flags empty none arguments

/-- The value of an option. -/
def value? (a : Arguments) (name : String) : Option String := a.options.lookup name

/-- Whether an option is given. -/
def has (a : Arguments) (name : String) : Bool := (a.value? name).isSome

/-- The value of an option, or a default. -/
def text (a : Arguments) (name default : String) : String := (a.value? name).getD default

end Arguments

/-- The number that an argument denotes: decimal digits, with or without a plus. -/
def wordArgument? (s : String) : Option Nat :=
  match s.toList with
  | '+' :: digits => Text.readWord? digits
  | digits => Text.readWord? digits

/-- The path that an argument denotes, which is not empty. -/
def pathArgument? (s : String) : Option String := if s = "" then none else some s

namespace Arguments

/-- The value of an option, read in some way, or a default. -/
def readOr {α : Type} (a : Arguments) (name : String) (read : String → Option α) (default : α) :
    Option α :=
  match a.value? name with
  | some s => read s
  | none => some default

/-- The number that an option gives, or a default. -/
def word (a : Arguments) (name : String) (default : Nat) : Option Nat :=
  a.readOr name wordArgument? default

/-- The path that an option gives, or a default. -/
def path (a : Arguments) (name default : String) : Option String :=
  a.readOr name pathArgument? default

/-- The path that an option gives, if it is given. -/
def path? (a : Arguments) (name : String) : Option (Option String) :=
  a.readOr name (fun s => (pathArgument? s).map some) none

/-- The format that an option gives; otherwise a text. -/
def format (a : Arguments) : Option Format := a.readOr "format" Format.ofLabel? .text

end Arguments

namespace Flag

/-- The option that chooses a format. -/
def format : Flag := { name := "format", letter := some 'f' }

end Flag

end SectionLedger
