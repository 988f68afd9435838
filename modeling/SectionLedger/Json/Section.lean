import SectionLedger.Decoration
import SectionLedger.Json.Record

/-!
# Sections in JSON

The JSON forms of statuses, spans, sections and decorations.
-/

namespace SectionLedger

open Json

namespace Status

/-- The JSON form of a status is its text. -/
def toJson (s : Status) : Value := .text s.label

def ofJson? : Value → Option Status := Value.asLabelled? ofLabel?

end Status

namespace Span

def toJson (s : Span) : Value :=
  .record [("kind", .text s.kind), ("start_line", .nat s.first), ("end_line", .nat s.last)]

def ofJson? (v : Value) : Option Span := do
  let [kind, first, last] ← v.slots? ["kind", "start_line", "end_line"] | none
  return {
    kind := ← kind.required Value.asText?
    first := ← first.required Value.asWord?
    last := ← last.required Value.asWord? }

end Span

namespace Section

/-- The fields of a section, in the order in which they are stored. -/
def fieldNames : List String :=
  ["file_id", "start_line", "end_line", "kind", "status", "status_data", "snapshot", "name",
   "description"]

def toJson (s : Section) : Value :=
  .record (fieldNames.zip
    [.nat s.file, .nat s.first, .nat s.last, .text s.kind, .ofOption Status.toJson s.status,
     .text s.statusData, .text s.snapshot, .text s.name, .text s.description])

def ofJson? (v : Value) : Option Section := do
  let [file, first, last, kind, status, statusData, snapshot, name, description] ←
    v.slots? fieldNames | none
  return {
    file := ← file.required Value.asWord?
    first := ← first.required Value.asWord?
    last := ← last.required Value.asWord?
    kind := ← kind.required Value.asText?
    status := ← status.nullable Status.ofJson?
    statusData := ← statusData.withDefault "" Value.asText?
    snapshot := ← snapshot.required Value.asText?
    name := ← name.withDefault "" Value.asText?
    description := ← description.withDefault "" Value.asText? }

end Section

namespace Nesting

def toJson (n : Nesting) : Value := .text n.label

def ofJson? : Value → Option Nesting := Value.asLabelled? ofLabel?

end Nesting

namespace Decoration

/-- The fields of a decoration, in the order in which they are written. -/
def fieldNames : List String :=
  ["line_number", "text", "start_line", "end_line", "nesting", "kind", "status", "closes_section"]

def toJson (d : Decoration) : Value :=
  .record (fieldNames.zip
    [.nat d.line, .text d.text, .nat d.first, .nat d.last, .ofOption Nesting.toJson d.nesting,
     .ofOption .text d.kind, .ofOption Status.toJson d.status, .bool d.closes])

def ofJson? (v : Value) : Option Decoration := do
  let [line, text, first, last, nesting, kind, status, closes] ← v.slots? fieldNames | none
  return {
    line := ← line.required Value.asWord?
    text := ← text.required Value.asText?
    first := ← first.required Value.asWord?
    last := ← last.required Value.asWord?
    nesting := ← nesting.nullable Nesting.ofJson?
    kind := ← kind.nullable Value.asText?
    status := ← status.nullable Status.ofJson?
    closes := ← closes.required Value.asBool? }

end Decoration

end SectionLedger
