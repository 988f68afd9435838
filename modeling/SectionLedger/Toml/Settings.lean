import SectionLedger.Json.Settings
import SectionLedger.Toml.Printer
import SectionLedger.Toml.Reader

/-!
# Settings in TOML

Settings are kept in a TOML document with a table for each of their records.  A list that is given
in place of a table may have more items than the record has fields.
-/

namespace SectionLedger

/-- The value without the items that a list has beyond a number of fields. -/
def cutSurplus (fields : Nat) : Json.Value → Json.Value
  | .list items => .list (items.take fields)
  | v => v

namespace Settings

/-- The tables of settings. -/
def toTables (s : Settings) : List (String × List (String × Toml.Field)) :=
  [("compiler", Tool.fieldNames.zip
      [.text s.tool.binary, .text s.tool.stem, .text s.tool.sourceExtension,
       .text s.tool.listingExtension]),
   ("options", Options.fieldNames.zip
      [.text s.options.standard, .text s.options.processor, .texts s.options.optimizations,
       .texts s.options.dependent]),
   ("store", [("path", .text s.ledgerPath)])]

/-- The TOML document of settings. -/
def toToml (s : Settings) : String := String.ofList (Toml.printTables s.toTables)

/-- The settings that a TOML document holds. -/
def ofToml? (document : String) : Option Settings := do
  ofValue? cutSurplus (← Toml.read? document).toJson

end Settings

end SectionLedger
