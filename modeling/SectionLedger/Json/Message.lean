import SectionLedger.Compiler.Listing
import SectionLedger.Json.Section
import SectionLedger.Ledger.Shelf

/-!
# Compiler output in JSON

The JSON forms of messages, marked lines and the summary of an applied compilation.
-/

namespace SectionLedger

open Json

namespace Diagnostic

def toJson (d : Diagnostic) : Value :=
  .record [("source_line", .nat d.line), ("text", .text d.text)]

def ofJson? (v : Value) : Option Diagnostic := do
  let [line, text] ← v.slots? ["source_line", "text"] | none
  return { line := ← line.required Value.asWord?, text := ← text.required Value.asText? }

end Diagnostic

namespace ErrorLine

def toJson (e : ErrorLine) : Value :=
  .record [("text", .text e.text), ("source_line", .nat e.line)]

def ofJson? (v : Value) : Option ErrorLine := do
  let [text, line] ← v.slots? ["text", "source_line"] | none
  return { text := ← text.required Value.asText?, line := ← line.required Value.asWord? }

end ErrorLine

namespace Zone

/-- The name of a zone, as it is stored. -/
def label : Zone → String
  | header => "asm-header"
  | body => "asm-body"

def ofLabel? (text : String) : Option Zone := [header, body].find? fun z => z.label == text

end Zone

namespace Edge

/-- The name of an edge, as it is stored. -/
def label : Edge → String
  | before => "before"
  | after => "after"

def ofLabel? (text : String) : Option Edge := [before, after].find? fun e => e.label == text

end Edge

namespace Marker

def toJson (m : Marker) : Value :=
  .record [("class", .text m.zone.label), ("position", .text m.edge.label)]

def ofJson? (v : Value) : Option Marker := do
  let [zone, edge] ← v.slots? ["class", "position"] | none
  return {
    zone := ← zone.required (Value.asLabelled? Zone.ofLabel?)
    edge := ← edge.required (Value.asLabelled? Edge.ofLabel?) }

end Marker

namespace ListingLine

def toJson (l : ListingLine) : Value :=
  .record [("code", .text l.code), ("marker", .ofOption Marker.toJson l.marker),
    ("source_line", .nat l.line)]

def ofJson? (v : Value) : Option ListingLine := do
  let [code, marker, line] ← v.slots? ["code", "marker", "source_line"] | none
  return {
    code := ← code.required Value.asText?
    marker := ← marker.nullable Marker.ofJson?
    line := ← line.required Value.asWord? }

end ListingLine

namespace Summary

/-- The fields of a summary, in the order in which they are written. -/
def fieldNames : List String :=
  ["status", "residual_status", "diagnostics_applied", "section_updates", "pending_assigned"]

def toJson (s : Summary) : Value :=
  .record (fieldNames.zip
    [s.status.toJson, s.residual.toJson, .nat s.applied, .nat s.updates, .nat s.settled])

end Summary

end SectionLedger
