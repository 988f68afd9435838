import SectionLedger.Compiler.Settings
import SectionLedger.Fault

/-!
# Compilations

A backend turns a source text into what a compiler makes of it.  No backend accepts options that are
refused by the tables.
-/

namespace SectionLedger

/-- What a compilation is asked for: the names of its files, and its options. -/
structure Request where
  sourceName : String
  listingName : String
  options : Options
  deriving DecidableEq, Repr

/-- The request that settings ask for. -/
def Settings.request (s : Settings) : Request :=
  ⟨s.tool.sourceName, s.tool.listingName, s.options⟩

/-- What a compiler made of a source text. -/
structure Artifacts where
  stdout : String := ""
  stderr : String := ""
  /-- None if the compiler wrote no listing. -/
  listing : Option String := none
  deriving DecidableEq, Repr

/-- Why there is no outcome of a compilation. -/
inductive CompileFault where
  /-- The options are refused. -/
  | badOptions (fault : OptionFault)
  /-- The source could not be written where the compiler runs. -/
  | unwritable (name : String) (cause : FileFault)
  /-- The compiler could not be run. -/
  | notRun (binary : String)
  /-- There is a listing, but it could not be read. -/
  | unreadable (name : String) (cause : FileFault)
  deriving DecidableEq, Repr

namespace CompileFault

/-- The text shown for a compilation without an outcome. -/
def message : CompileFault → String
  | badOptions fault => fault.message
  | unwritable name _ => "Failed to write " ++ name
  | notRun binary => "Failed to run compiler '" ++ binary ++ "'"
  | unreadable name _ => "Failed to read " ++ name

/-- The faults that lie behind a compilation without an outcome, as texts. -/
def causes : CompileFault → List String
  | badOptions _ => []
  | unwritable _ cause => [cause.message]
  | notRun _ => [FileFault.missing.message]
  | unreadable _ cause => [cause.message]

end CompileFault

/-- Compiles a source text. -/
abbrev Backend := Request → (source : String) → Except CompileFault Artifacts

namespace Backend

/-- A backend that refuses bad options and hands good ones on. -/
def checked (compile : Backend) : Backend := fun request source =>
  match request.options.check with
  | .error fault => .error (.badOptions fault)
  | .ok () => compile request source

/-- The backend whose every compilation has the same outcome. -/
def fixed (artifacts : Artifacts) : Backend := checked fun _ _ => .ok artifacts

theorem checked_eq_error {compile : Backend} {request : Request} {fault : OptionFault}
    (h : request.options.check = .error fault) (source : String) :
    checked compile request source = .error (.badOptions fault) := by
  simp [checked, h]

end Backend

end SectionLedger
