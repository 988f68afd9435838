/-!
# Compiler options

What a compilation may be asked for: a language standard, a processor, optimizations, and options
that only some processors have.  The tables list what the compiler knows; options outside them are
refused before the compiler is run.
-/

namespace SectionLedger

/-- The options of one compilation. -/
structure Options where
  standard : String := "c99"
  processor : String := "mcs51"
  optimizations : List String := []
  /-- Options that the processor has and others need not have. -/
  dependent : List String := []
  deriving DecidableEq, Repr

/-- Why options are refused. -/
inductive OptionFault where
  | unknownStandard (name : String)
  | unknownProcessor (name : String)
  | unknownOptimization (name : String)
  | notAvailable (option processor : String)
  deriving DecidableEq, Repr

/-- The text shown for options that are refused. -/
def OptionFault.message : OptionFault → String
  | unknownStandard name => "Unknown language standard: " ++ name
  | unknownProcessor name => "Unknown processor: " ++ name
  | unknownOptimization name => "Unknown optimization: " ++ name
  | notAvailable option processor =>
    "Option '" ++ option ++ "' is not available for processor '" ++ processor ++ "'"

namespace Options

/-- The language standards. -/
def standards : List String :=
  ["c89", "sdcc89", "c95", "c99", "sdcc99", "c11", "sdcc11", "c2x", "sdcc2x"]

/-- The optimizations. -/
def allOptimizations : List String :=
  ["noloopreverse", "nolabelopt", "no-xinit-opt", "nooverlay", "no-peep", "peep-return",
   "no-peep-return", "opt-code-speed", "opt-code-size", "fomit-frame-pointer", "nolospre",
   "nostdlibcall"]

/-- The options of the Z80 and its relatives. -/
def z80Options : List String :=
  ["no-std-crt0", "callee-saves-bc", "reserve-regs-iy", "fno-omit-frame-pointer"]

/-- The options of the DS390 and the DS400. -/
def ds390Options : List String :=
  ["model-flat24", "protect-sp-update", "stack-10bit", "stack-probe", "use-accelerator"]

/-- The processors, each with the options that depend on it. -/
def processorTable : List (String × List String) :=
  [("mcs51", ["model-small", "model-medium", "model-large", "model-huge"]),
   ("ds390", ds390Options), ("ds400", ds390Options),
   ("z80", z80Options), ("z180", z80Options), ("r2k", z80Options), ("r3ka", z80Options),
   ("sm83", ["no-std-crt0", "callee-saves-bc"]),
   ("tlcs90", z80Options), ("ez80_z80", z80Options),
   ("stm8", ["model-medium", "model-large"])]

/-- The processors. -/
def processors : List String := processorTable.map Prod.fst

/-- The options that depend on a processor; an unknown processor has none. -/
def dependentOn (processor : String) : List String := (processorTable.lookup processor).getD []

/-- Refuses options outside the tables, and names the first one. -/
def check (o : Options) : Except OptionFault Unit := do
  unless standards.contains o.standard do throw (.unknownStandard o.standard)
  unless processors.contains o.processor do throw (.unknownProcessor o.processor)
  if let some name := o.optimizations.find? fun name => !allOptimizations.contains name then
    throw (.unknownOptimization name)
  if let some name := o.dependent.find? fun name => !(dependentOn o.processor).contains name then
    throw (.notAvailable name o.processor)

/-- The arguments that ask the compiler for these options. -/
def arguments (o : Options) : List String :=
  ["--std-" ++ o.standard, "-m" ++ o.processor] ++
    (o.optimizations ++ o.dependent).map fun name => "--" ++ name

theorem check_default : check {} = .ok () := rfl

end Options

end SectionLedger
