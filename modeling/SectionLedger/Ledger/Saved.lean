import SectionLedger.Json.Printer
import SectionLedger.Json.Reader
import SectionLedger.Json.Section
import SectionLedger.Ledger.Basic

/-!
# Saved ledgers

A ledger is saved as pretty JSON: the registered kinds, and for each file that has sections its
number, in decimal, with the sections in order.  Loading takes the registry and the sections as they
are written, whether or not they would be admitted; of two entries for one file the last counts.
-/

namespace SectionLedger

open Json

namespace Registry

def toJson (r : Registry) : Value := .record [("names", .ofList .text r.names)]

def ofJson? (v : Value) : Option Registry := do
  let [names] ← v.slots? ["names"] | none
  return .ofList (← names.required (Value.asList? Value.asText?))

end Registry

/-- The file number that a key denotes: a number that fits a machine word. -/
def fileIdOfKey? : Key → Option FileId
  | .number n => if n < Text.wordLimit then some n else none
  | .name _ => none

namespace ShelfTable

def toJson (t : ShelfTable) : Value :=
  .object (t.rows.map fun row => (.number row.1, .ofList Section.toJson row.2))

/-- The table with the entries of an object put in, in order. -/
def setMembers (t : ShelfTable) : List (Key × Value) → Option ShelfTable
  | [] => some t
  | (key, v) :: members => do
    let file ← fileIdOfKey? key
    let shelf ← v.asList? Section.ofJson?
    setMembers (t.set file shelf) members

def ofJson? : Value → Option ShelfTable
  | .object members => setMembers empty members
  | _ => none

end ShelfTable

namespace Ledger

def toJson (l : Ledger) : Value :=
  .record [("kinds", l.kinds.toJson), ("files", l.shelves.toJson)]

def ofJson? (v : Value) : Option Ledger := do
  let [kinds, shelves] ← v.slots? ["kinds", "files"] | none
  return {
    kinds := ← kinds.required Registry.ofJson?
    shelves := ← shelves.required ShelfTable.ofJson? }

/-- The text of a saved ledger. -/
def savedText (l : Ledger) : String := l.toJson.pretty

/-- The ledger that was saved as a text. -/
def ofSavedText (text : String) : Except Fault Ledger :=
  match read? text >>= ofJson? with
  | some l => .ok l
  | none => .error .malformedJson

end Ledger

end SectionLedger
