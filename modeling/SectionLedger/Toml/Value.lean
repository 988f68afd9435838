import SectionLedger.Json.Value

/-!
# TOML values

A value is what a TOML document, or a part of it, denotes.  Tables remember how they came to be,
because that decides whether a later part of the document may add to them.  Numbers with a fraction
and moments in time are legal values that no record uses, so what they denote is not kept.
-/

namespace SectionLedger.Toml

/-- How a table came to be. -/
inductive Origin where
  /-- A header names it. -/
  | header
  /-- It is on the way to a table that a header names. -/
  | implied
  /-- It is on the way to a value that a dotted key names. -/
  | dotted
  deriving DecidableEq, Repr

/-- What a part of a TOML document denotes. -/
inductive Value where
  | text (s : String)
  | bool (b : Bool)
  | int (i : Int)
  | float
  | moment
  | list (items : List Value)
  /-- A table in braces, to which nothing can be added. -/
  | closed (members : List (String × Value))
  | table (origin : Origin) (members : List (String × Value))
  /-- The tables of one name whose headers have double brackets. -/
  | tables (items : List (List (String × Value)))
  deriving Inhabited

/-- The named values of a table. -/
abbrev Members := List (String × Value)

mutual

/-- A value as a record is read from it.  A moment in time is read as a record without fields. -/
def Value.toJson : Value → Json.Value
  | .text s => .text s
  | .bool b => .bool b
  | .int (.ofNat n) => .nat n
  | .int (.negSucc n) => .negative (n + 1)
  | .float => .foreign
  | .moment => .record []
  | .list items => .list (itemsToJson items)
  | .closed members => .record (membersToJson members)
  | .table _ members => .record (membersToJson members)
  | .tables items => .list (tablesToJson items)

/-- The items of a list as records are read from them. -/
def itemsToJson : List Value → List Json.Value
  | [] => []
  | v :: vs => v.toJson :: itemsToJson vs

/-- The members of a table as a record is read from them. -/
def membersToJson : List (String × Value) → List (String × Json.Value)
  | [] => []
  | (key, v) :: members => (key, v.toJson) :: membersToJson members

/-- The tables of one name as records are read from them. -/
def tablesToJson : List (List (String × Value)) → List Json.Value
  | [] => []
  | members :: items => .record (membersToJson members) :: tablesToJson items

end

end SectionLedger.Toml
