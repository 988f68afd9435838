import SectionLedger.Directory.Basic
import SectionLedger.Segmentation
import SectionLedger.Source

/-!
# Surveys

A survey cuts every C source below a directory and records, file by file, how many sections there
are or why the file could not be cut.
-/

namespace SectionLedger

/-- The outcome for one file. -/
structure FileSurvey where
  path : String
  lines : Nat
  sections : Nat
  /-- Why the file could not be read or cut. -/
  failure : Option String
  deriving DecidableEq, Repr

/-- The outcome for the files below a directory. -/
structure Survey where
  files : List FileSurvey
  failures : Nat
  deriving DecidableEq, Repr

namespace FileSurvey

/-- The survey of the file that a path leads to. -/
def ofPath (d : Directory) (path : String) : FileSurvey :=
  match d.readText path with
  | .error cause => ⟨path, 0, 0, some (Fault.unreadable path cause).message⟩
  | .ok text =>
    let lines := (Source.ofFile text).lines
    match fileSpans lines with
    | .ok spans => ⟨path, lines.length, spans.length, none⟩
    | .error fault => ⟨path, lines.length, 0, some fault.message⟩

end FileSurvey

namespace Directory

/-- The paths of the files that a path leads to: the file itself, or every file below the directory
whose own directory can be reached by a path. -/
def filesFrom (d : Directory) (path : String) : List String :=
  match d.find path with
  | .ok (.file _) => [path]
  | .ok .folder =>
    match d.locate path with
    | .error _ => []
    | .ok place => (d.below place).filterMap fun row =>
      match row.2 with
      | .file _ =>
        if d.has (Path.joinPlace path row.1.dropLast) then some (Path.joinPlace path row.1)
        else none
      | _ => none
  | _ => []

end Directory

namespace Survey

/-- The survey of files that have been looked at. -/
def ofFiles (files : List FileSurvey) : Survey := ⟨files, files.countP fun f => f.failure.isSome⟩

/-- The survey of the C sources that a path leads to. -/
def ofDirectory (d : Directory) (path : String) : Survey :=
  ofFiles (((d.filesFrom path).filter Path.isSource).map (.ofPath d))

/-- What is remarked on the files that could not be cut. -/
def notes (s : Survey) : List String :=
  s.files.filterMap fun f => f.failure.map fun failure =>
    "Failed to sectionize " ++ f.path ++ ": " ++ failure

/-- Whether every file could be cut. -/
def passed (s : Survey) : Bool := s.failures == 0

end Survey

end SectionLedger
