/-!
# JSON values

A value is what a JSON text denotes, as far as the records of this library can use it.  Numbers with
a fraction or an exponent, and strings or keys whose escapes do not denote a text, are legal JSON
that no record uses; all of them are `foreign`.  The key of a member is a name, or a natural number
in quotes.
-/

namespace SectionLedger.Json

/-- The key of a member. -/
inductive Key where
  | name (s : String)
  /-- A natural number in decimal digits, none of them written by an escape. -/
  | number (n : Nat)
  deriving DecidableEq, Repr, Inhabited

/-- The text of a key. -/
def Key.text : Key → String
  | name s => s
  | number n => toString n

/-- What a JSON text denotes. -/
inductive Value where
  | null
  | bool (b : Bool)
  | nat (n : Nat)
  /-- The whole number that is so far below zero. -/
  | negative (n : Nat)
  | text (s : String)
  | list (items : List Value)
  /-- The members of an object, in the order of the text. -/
  | object (members : List (Key × Value))
  /-- A legal value that no record uses. -/
  | foreign
  deriving Inhabited

namespace Value

/-- The object whose members are the fields of a record. -/
def record (fields : List (String × Value)) : Value :=
  object (fields.map fun field => (.name field.1, field.2))

/-- The value of an optional field. -/
def ofOption {α : Type} (encode : α → Value) : Option α → Value
  | none => null
  | some a => encode a

/-- The value of a list of values. -/
def ofList {α : Type} (encode : α → Value) (as : List α) : Value := list (as.map encode)

end Value

end SectionLedger.Json
