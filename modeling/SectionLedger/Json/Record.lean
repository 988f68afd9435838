import SectionLedger.Json.Value
import SectionLedger.Text.Digit

/-!
# Records in JSON

A record may be written as an object, whose members come in any order, or as a list of its fields in
order.  An object may have other members, but none of the record's fields twice.  What becomes of a
field that is not given depends on the field: `required`, `nullable` or `withDefault`.
-/

namespace SectionLedger.Json

/-- What is written for a field of a record. -/
inductive Slot where
  | given (v : Value)
  /-- An object has no such member. -/
  | absent
  /-- A list ends before the field. -/
  | beyondEnd

namespace Value

/-- The natural numbers that fit a machine word. -/
def asWord? : Value → Option Nat
  | .nat n => if n < Text.wordLimit then some n else none
  | _ => none

/-- The texts. -/
def asText? : Value → Option String
  | .text s => some s
  | _ => none

/-- The truth values. -/
def asBool? : Value → Option Bool
  | .bool b => some b
  | _ => none

/-- The lists of values that are read in the same way. -/
def asList? {α : Type} (decode : Value → Option α) : Value → Option (List α)
  | .list items => items.mapM decode
  | _ => none

/-- One of several labelled values: its label, or an object that maps the label to null. -/
def asLabelled? {α : Type} (ofLabel? : String → Option α) : Value → Option α
  | .text s => ofLabel? s
  | .object [(.name s, .null)] => ofLabel? s
  | _ => none

/-- What is written for the fields of a record, in the order of the names. -/
def slots? (names : List String) : Value → Option (List Slot)
  | .object members =>
    if names.any fun name => 1 < members.countP fun m => m.1 == .name name then none
    else some (names.map fun name => (members.lookup (.name name)).elim .absent .given)
  | .list items =>
    if names.length < items.length then none
    else some (items.map .given ++ List.replicate (names.length - items.length) .beyondEnd)
  | _ => none

end Value

namespace Slot

/-- A field that has to be given. -/
def required {α : Type} (decode : Value → Option α) : Slot → Option α
  | given v => decode v
  | _ => none

/-- A field that may be null; an object may leave it out, a list may not end before it. -/
def nullable {α : Type} (decode : Value → Option α) : Slot → Option (Option α)
  | given .null => some none
  | given v => (decode v).map some
  | absent => some none
  | beyondEnd => none

/-- A field that has a value of its own when it is not given. -/
def withDefault {α : Type} (default : α) (decode : Value → Option α) : Slot → Option α
  | given v => decode v
  | _ => some default

end Slot

end SectionLedger.Json
