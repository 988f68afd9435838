import SectionLedger.Display.Basic
import SectionLedger.Survey

/-!
# Surveys on display

The JSON form of a survey, and its text for the terminal.
-/

namespace SectionLedger

open Json Text

namespace FileSurvey

def toJson (f : FileSurvey) : Value :=
  .record [("path", .text f.path), ("lines", .nat f.lines), ("sections", .nat f.sections),
    ("error", .ofOption .text f.failure)]

def ofJson? (v : Value) : Option FileSurvey := do
  let [path, lines, sections, failure] ← v.slots? ["path", "lines", "sections", "error"] | none
  return {
    path := ← path.required Value.asText?
    lines := ← lines.required Value.asWord?
    sections := ← sections.required Value.asWord?
    failure := ← failure.nullable Value.asText? }

/-- The outcome for a file on the terminal. -/
def row (colour : Bool) (f : FileSurvey) : String :=
  match f.failure with
  | some failure =>
    Ink.boldRed.write colour "FAIL" ++ " " ++ Ink.dim.write colour f.path ++ " - " ++ failure ++
      "\n"
  | none =>
    Ink.boldGreen.write colour "OK" ++ " " ++ f.path ++
      s!" ({f.lines} lines, {f.sections} sections)\n"

end FileSurvey

namespace Survey

def toJson (s : Survey) : Value :=
  .record [("files", .ofList FileSurvey.toJson s.files), ("failures", .nat s.failures)]

def ofJson? (v : Value) : Option Survey := do
  let [files, failures] ← v.slots? ["files", "failures"] | none
  return {
    files := ← files.required (Value.asList? FileSurvey.ofJson?)
    failures := ← failures.required Value.asWord? }

/-- The count of the files on the terminal. -/
def countText (colour : Bool) (s : Survey) : String :=
  if s.passed then Ink.boldGreen.write colour "OK" ++ s!" Scanned {s.files.length} files\n"
  else s!"Scanned {s.files.length} files, " ++
    Ink.boldRed.write colour (toString s.failures) ++ " failed\n"

/-- A survey on the terminal. -/
def listText (colour : Bool) (s : Survey) : String :=
  String.join (s.files.map (FileSurvey.row colour)) ++ "\n" ++ s.countText colour

def listDisplay (format : Format) (colour : Bool) (s : Survey) : String :=
  format.render (listText colour s) s.toJson

end Survey

end SectionLedger
