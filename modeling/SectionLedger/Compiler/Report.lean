import SectionLedger.Calendar
import SectionLedger.Compiler.Backend
import SectionLedger.Compiler.Listing
import SectionLedger.Ledger.Basic

/-!
# Compile sessions

A session compiles the source of a file, applies the outcome to the file's sections, and reports
what it found.  A compilation without an outcome leaves the ledger as it is.
-/

namespace SectionLedger

/-- What one compilation produced, related to the lines of the source. -/
structure Report where
  file : FileId
  sourceName : String
  time : Instant
  options : Options
  status : Status
  annotation : Summary
  diagnostics : List Diagnostic
  /-- Empty if the file does not compile. -/
  listing : List ListingLine
  /-- Empty if the file compiles. -/
  errorLines : List ErrorLine
  stdout : String
  deriving DecidableEq, Repr

namespace Report

/-- Whether the file compiled. -/
def compiled (r : Report) : Bool := r.status != .doesNotCompile

end Report

namespace Ledger

/-- Applies what a compiler made of a file, and reports it. -/
def applyArtifacts (l : Ledger) (file : FileId) (request : Request) (time : Instant)
    (a : Artifacts) : Ledger × Report :=
  let diagnostics := Diagnostic.ofOutput request.sourceName a.stderr
  let status := Status.ofOutcome a.listing.isSome diagnostics
  let after := l.apply file status diagnostics
  (after.1,
   { file, sourceName := request.sourceName, time, options := request.options, status,
     annotation := after.2, diagnostics,
     listing := a.listing.elim [] (ListingLine.ofListing request.sourceName),
     errorLines := if a.listing.isSome then [] else ErrorLine.ofOutput request.sourceName a.stderr,
     stdout := a.stdout })

/-- Compiles the source of a file and applies the outcome. -/
def compile (l : Ledger) (backend : Backend) (request : Request) (file : FileId) (source : Source)
    (time : Instant) : Ledger × Except CompileFault Report :=
  match backend request source.text with
  | .error fault => (l, .error fault)
  | .ok artifacts =>
    let after := l.applyArtifacts file request time artifacts
    (after.1, .ok after.2)

end Ledger

end SectionLedger
