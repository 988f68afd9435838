import SectionLedger.Compiler.Settings
import SectionLedger.Json.Record

/-!
# Settings in JSON

The JSON forms of options and settings.  Other notations for settings are read by way of these
forms, and not all of them refuse a list with more items than the record has fields; what becomes of
the surplus is therefore a parameter of reading.
-/

namespace SectionLedger

open Json

namespace Options

/-- The fields of options, in the order in which they are written. -/
def fieldNames : List String := ["standard", "processor", "optimizations", "dependent"]

def toJson (o : Options) : Value :=
  .record (fieldNames.zip
    [.text o.standard, .text o.processor, .ofList .text o.optimizations, .ofList .text o.dependent])

def ofJson? (v : Value) : Option Options := do
  let [standard, processor, optimizations, dependent] ← v.slots? fieldNames | none
  return {
    standard := ← standard.withDefault "c99" Value.asText?
    processor := ← processor.withDefault "mcs51" Value.asText?
    optimizations := ← optimizations.withDefault [] (Value.asList? Value.asText?)
    dependent := ← dependent.withDefault [] (Value.asList? Value.asText?) }

end Options

namespace Tool

/-- The fields of a compiler, in the order in which they are written. -/
def fieldNames : List String := ["binary", "stem", "source_ext", "listing_ext"]

def toJson (t : Tool) : Value :=
  .record (fieldNames.zip
    [.text t.binary, .text t.stem, .text t.sourceExtension, .text t.listingExtension])

def ofJson? (v : Value) : Option Tool := do
  let [binary, stem, sourceExtension, listingExtension] ← v.slots? fieldNames | none
  return {
    binary := ← binary.withDefault "sdcc" Value.asText?
    stem := ← stem.withDefault "source" Value.asText?
    sourceExtension := ← sourceExtension.withDefault ".c" Value.asText?
    listingExtension := ← listingExtension.withDefault ".asm" Value.asText? }

end Tool

namespace Settings

/-- The path in the record that says where the ledger is kept. -/
def pathOfJson? (v : Value) : Option String := do
  let [path] ← v.slots? ["path"] | none
  path.withDefault "sections.json" Value.asText?

def toJson (s : Settings) : Value :=
  .record [("compiler", s.tool.toJson), ("options", s.options.toJson),
    ("store", .record [("path", .text s.ledgerPath)])]

/-- Reads settings, after each record has been cut to the number of its fields. -/
def ofValue? (cut : Nat → Value → Value) (v : Value) : Option Settings := do
  let [tool, options, store] ← (cut 3 v).slots? ["compiler", "options", "store"] | none
  return {
    tool := ← tool.withDefault {} fun v => Tool.ofJson? (cut 4 v)
    options := ← options.withDefault {} fun v => Options.ofJson? (cut 4 v)
    ledgerPath := ← store.withDefault "sections.json" fun v => pathOfJson? (cut 1 v) }

def ofJson? : Value → Option Settings := ofValue? fun _ v => v

end Settings

end SectionLedger
