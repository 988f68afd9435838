import SectionLedger.Compiler.Report
import SectionLedger.Display.Basic
import SectionLedger.Json.Settings

/-!
# Compile reports on display

The JSON form of a compile report, and its text for the terminal.
-/

namespace SectionLedger

open Json Text

namespace Status

/-- The ink that the status of a whole file is shown in. -/
def headInk : Status → Ink
  | doesNotCompile => .boldRed
  | compiledWithWarnings => .boldYellow
  | compiledWithoutWarnings => .boldGreen

end Status

namespace ErrorLine

/-- A line of compiler output on the terminal. -/
def row (colour : Bool) (e : ErrorLine) : String :=
  (if 0 < e.line then Ink.yellow.write colour s!"[{e.line}]" ++ " " ++ Ink.red.write colour e.text
    else e.text) ++ "\n"

end ErrorLine

namespace Report

def toJson (r : Report) : Value :=
  .record [("file_id", .nat r.file), ("source_name", .text r.sourceName),
    ("timestamp", .text r.time.stored), ("options", r.options.toJson),
    ("status", r.status.toJson), ("annotation", r.annotation.toJson),
    ("diagnostics", .ofList Diagnostic.toJson r.diagnostics),
    ("listing", .ofList ListingLine.toJson r.listing),
    ("error_lines", .ofList ErrorLine.toJson r.errorLines), ("stdout", .text r.stdout)]

/-- The verdict, the file, its options and the time of the compilation. -/
def headText (colour : Bool) (r : Report) : String :=
  r.status.headInk.write colour r.status.label ++ " " ++ r.sourceName ++ " (" ++
    Ink.dim.write colour (" ".intercalate r.options.arguments) ++ ")\n" ++
    Ink.dim.write colour "at" ++ " " ++ r.time.shown ++ "\n\n"

/-- The listing of a file that compiled, the messages of one that did not. -/
def bodyText (colour : Bool) (r : Report) : String :=
  if r.compiled then ListingLine.listText colour r.listing
  else String.join (r.errorLines.map (ErrorLine.row colour))

/-- What was done to the sections. -/
def footText (r : Report) : String :=
  s!"\n{r.annotation.applied} diagnostics applied to {r.annotation.updates} sections, " ++
    s!"{r.annotation.settled} sections marked '" ++ r.annotation.residual.label ++ "'\n"

/-- A report on the terminal. -/
def text (colour : Bool) (r : Report) : String :=
  r.headText colour ++ r.bodyText colour ++ r.footText

def display (format : Format) (colour : Bool) (r : Report) : String :=
  format.render (r.text colour) r.toJson

/-- The text of a report that is written to a file. -/
def savedText (r : Report) : String := r.toJson.pretty

end Report

end SectionLedger
