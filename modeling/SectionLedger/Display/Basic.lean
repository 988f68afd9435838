import SectionLedger.Json.Message
import SectionLedger.Json.Printer
import SectionLedger.Text.Ink

/-!
# Displays

The spans, sections, decorations, messages and listings of the library are shown as a text for the
terminal, with or without colour, or as JSON in its compact or its pretty form.
-/

namespace SectionLedger

open Text

/-- The forms in which a result is shown. -/
inductive Format where
  | text
  | json
  | jsonPretty
  deriving DecidableEq, Repr

namespace Format

/-- The name of a format. -/
def label : Format → String
  | text => "text"
  | json => "json"
  | jsonPretty => "json-pretty"

/-- The format with a given name. -/
def ofLabel? (name : String) : Option Format :=
  [text, json, jsonPretty].find? fun f => f.label == name

/-- A result in a format, given its text and its JSON form. -/
def render (format : Format) (onTerminal : String) (v : Json.Value) : String :=
  match format with
  | text => onTerminal
  | json => v.compact
  | jsonPretty => v.pretty

end Format

/-- A line number at the right of a column of five. -/
def lineColumn (n : Nat) : String := String.ofList (padStart 5 (Nat.toDigits 10 n))

/-- The lines of an interval, in two columns of five. -/
def intervalColumns (i : Interval) : String :=
  lineColumn i.first ++ "-" ++ String.ofList (padEnd 5 (Nat.toDigits 10 i.last))

namespace Status

/-- The ink that a status is shown in. -/
def ink : Status → Ink
  | doesNotCompile => .boldRed
  | compiledWithWarnings => .yellow
  | compiledWithoutWarnings => .green

/-- A status in its ink. -/
def shown (colour : Bool) (s : Status) : String := s.ink.write colour s.label

end Status

namespace Span

/-- Spans are shown by first line, and of those that begin on a line the longest first. -/
def shownBefore (a b : Span) : Bool := a.first < b.first || (a.first == b.first && b.last ≤ a.last)

/-- A span on the terminal. -/
def row (colour : Bool) (s : Span) : String :=
  intervalColumns s.toInterval ++ " " ++ Ink.cyan.write colour s.kind ++ "\n"

/-- Spans on the terminal. -/
def listText (colour : Bool) (spans : List Span) : String :=
  String.join ((spans.mergeSort shownBefore).map (row colour)) ++ s!"\n{spans.length} sections\n"

def listDisplay (format : Format) (colour : Bool) (spans : List Span) : String :=
  format.render (listText colour spans) (.ofList toJson spans)

end Span

namespace Section

/-- The verdict on a section on the terminal. -/
def verdictText (colour : Bool) : Option Status → String
  | some s => s.shown colour
  | none => Ink.dim.write colour "pending"

/-- A section on the terminal, with the messages that concern it. -/
def row (colour : Bool) (s : Section) : String :=
  intervalColumns s.toInterval ++ " " ++ Ink.cyan.writeColumn colour 10 s.kind ++ " " ++
    verdictText colour s.status ++ "\n" ++
    if s.statusData = "" then ""
    else "  " ++ Ink.dim.write colour "data:" ++ " " ++ s.statusData ++ "\n"

/-- Sections on the terminal. -/
def listText (colour : Bool) (sections : List Section) : String :=
  String.join (sections.map (row colour))

def listDisplay (format : Format) (colour : Bool) (sections : List Section) : String :=
  format.render (listText colour sections) (.ofList toJson sections)

end Section

namespace Diagnostic

/-- A message on the terminal. -/
def row (colour : Bool) (d : Diagnostic) : String :=
  (if d.isAttributed then Ink.yellow.write colour s!"line {d.line}"
    else Ink.dim.write colour "unattributed") ++ " " ++ d.text ++ "\n"

/-- Messages on the terminal. -/
def listText (colour : Bool) (ds : List Diagnostic) : String :=
  String.join (ds.map (row colour)) ++
    s!"\n{ds.length} diagnostics, {ds.countP isAttributed} attributed\n"

def listDisplay (format : Format) (colour : Bool) (ds : List Diagnostic) : String :=
  format.render (listText colour ds) (.ofList toJson ds)

end Diagnostic

namespace ListingLine

/-- The lines of a listing on the terminal, given whether the first one stands in a header block. -/
def rows (colour : Bool) : (inHeader : Bool) → List ListingLine → List String
  | _, [] => []
  | inHeader, l :: ls =>
    match l.marker with
    | some m => Ink.dim.write colour l.code :: rows colour (m.zone == .header) ls
    | none =>
      (if inHeader then Ink.dim.write colour l.code
        else if 0 < l.line then
          Ink.yellow.write colour s!"[{l.line}]" ++ " " ++ Ink.green.write colour l.code
        else l.code) :: rows colour inHeader ls

/-- A listing on the terminal. -/
def listText (colour : Bool) (ls : List ListingLine) : String :=
  String.join ((rows colour false ls).map (· ++ "\n"))

def listDisplay (format : Format) (colour : Bool) (ls : List ListingLine) : String :=
  format.render (listText colour ls) (.ofList toJson ls)

end ListingLine

end SectionLedger
