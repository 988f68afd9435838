import SectionLedger.Toml.Value

/-!
# Assembling tables

The parts of a document are put into tables one after another.  A key names a value once.  A table
that a header names is complete when the next header comes, except that headers may name tables
below it; a table that dotted keys made belongs to them.
-/

namespace SectionLedger.Toml

/-- The members with the value of a key replaced. -/
def replaceValue (key : String) (v : Value) : Members → Members
  | [] => []
  | m :: ms => if m.1 = key then (key, v) :: ms else m :: replaceValue key v ms

/-- Replaces the last item of a list. -/
def replaceLast {α : Type} (a : α) (as : List α) : List α := as.dropLast ++ [a]

/-- Puts a value under a dotted key.  The names before the last lead through tables made by dotted
keys; `inside` says whether the members are those of such a table. -/
def putFrom (v : Value) : (inside : Bool) → List String → Members → Option Members
  | _, [], _ => none
  | inside, [key], members =>
    if inside && (members.lookup key).isNone then some (members ++ [(key, v)]) else none
  | _, key :: keys, members =>
    match members.lookup key with
    | none => (putFrom v true keys []).map fun below => members ++ [(key, .table .dotted below)]
    | some (.table origin below) =>
      if origin = .header then none
      else (putFrom v (origin = .dotted) keys below).map fun below =>
        replaceValue key (.table origin below) members
    | some (.tables items) => do
      let below ← putFrom v false keys (← items.getLast?)
      return replaceValue key (.tables (replaceLast below items)) members
    | some _ => none

/-- Puts a value under a key, dotted or not. -/
def put (v : Value) (keys : List String) (members : Members) : Option Members :=
  putFrom v true keys members

/-- Changes the members of the table that names lead to.  Tables on the way are made where there are
none; of several tables of one name the last is meant. -/
def within (change : Members → Option Members) : List String → Members → Option Members
  | [], members => change members
  | key :: keys, members =>
    match members.lookup key with
    | none => (within change keys []).map fun below => members ++ [(key, .table .implied below)]
    | some (.table origin below) => (within change keys below).map fun below =>
        replaceValue key (.table origin below) members
    | some (.tables items) => do
      let below ← within change keys (← items.getLast?)
      return replaceValue key (.tables (replaceLast below items)) members
    | some _ => none

/-- Begins the table of a header. -/
def openTable (key : String) (members : Members) : Option Members :=
  match members.lookup key with
  | none => some (members ++ [(key, .table .header [])])
  | some (.table .implied below) => some (replaceValue key (.table .header below) members)
  | some _ => none

/-- Begins one more of several tables of one name. -/
def openItem (key : String) (members : Members) : Option Members :=
  match members.lookup key with
  | none => some (members ++ [(key, .tables [[]])])
  | some (.tables items) => some (replaceValue key (.tables (items ++ [[]])) members)
  | some _ => none

/-- The tables of a document so far, and the names of the one that keys are put into. -/
structure Draft where
  root : Members
  place : List String

namespace Draft

/-- The document without parts. -/
def empty : Draft := ⟨[], []⟩

/-- Adds a key and its value. -/
def addValue (d : Draft) (keys : List String) (v : Value) : Option Draft :=
  (within (put v keys) d.place d.root).map fun root => ⟨root, d.place⟩

/-- Adds a header. -/
def addHeader (d : Draft) (keys : List String) : Option Draft := do
  let key ← keys.getLast?
  let root ← within (openTable key) keys.dropLast d.root
  return ⟨root, keys⟩

/-- Adds a header with double brackets. -/
def addItem (d : Draft) (keys : List String) : Option Draft := do
  let key ← keys.getLast?
  let root ← within (openItem key) keys.dropLast d.root
  return ⟨root, keys⟩

end Draft

end SectionLedger.Toml
