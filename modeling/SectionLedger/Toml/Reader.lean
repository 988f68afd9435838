import SectionLedger.Toml.Lexeme
import SectionLedger.Toml.Number
import SectionLedger.Toml.Table

/-!
# Reading TOML

A document is a sequence of lines, each with a key and its value, or with a header, or with neither.
Values nest at most 79 deep, and a key has at most 79 names.
-/

namespace SectionLedger.Toml

/-- How deep values may nest, and how many names a key may have. -/
def depthLimit : Nat := 79

/-- The text after a word that it begins with. -/
def afterWord? (word s : List Char) : Option (List Char) :=
  if word.isPrefixOf s then some (s.drop word.length) else none

/-- A value that holds no other values. -/
def readScalar (s : List Char) : Option (Value × List Char) :=
  match s with
  | '"' :: _ => (readText s).map fun parts => (.text (String.ofList parts.1), parts.2)
  | '\'' :: _ => (readText s).map fun parts => (.text (String.ofList parts.1), parts.2)
  | 't' :: r => (afterWord? ['r', 'u', 'e'] r).map fun r => (.bool true, r)
  | 'f' :: r => (afterWord? ['a', 'l', 's', 'e'] r).map fun r => (.bool false, r)
  | _ => readNumberOrMoment s

/-- The items of a list up to its closing bracket, given how an item is read. -/
def readItems (readItem : List Char → Option (Value × List Char)) :
    (budget : Nat) → List Char → Option (List Value × List Char)
  | 0, _ => none
  | budget + 1, s =>
    match skipTrivia false s with
    | ']' :: s => some ([], s)
    | s => do
      let (v, s) ← readItem s
      match skipTrivia false s with
      | ',' :: s => (readItems readItem budget s).map fun parts => (v :: parts.1, parts.2)
      | ']' :: s => some ([v], s)
      | _ => none

/-- A key and its value, given how a value is read. -/
def readBinding (readItem : List Char → Option (Value × List Char)) (s : List Char) :
    Option ((List String × Value) × List Char) := do
  let (keys, s) ← readKey depthLimit s
  let (v, s) ← readItem (skipSpaces (← after? '=' s))
  return ((keys, v), s)

/-- The keys and values of a table in braces up to its closing brace, of which there is at least
one, put into its members so far. -/
def readClosed (readItem : List Char → Option (Value × List Char)) :
    (budget : Nat) → Members → List Char → Option (Members × List Char)
  | 0, _, _ => none
  | budget + 1, members, s => do
    let ((keys, v), s) ← readBinding readItem s
    let members ← put v keys members
    match skipSpaces s with
    | ',' :: s => readClosed readItem budget members s
    | '\x7d' :: s => some (members, s)
    | _ => none

/-- A value in which others nest at most to a depth. -/
def readValue : (depth : Nat) → List Char → Option (Value × List Char)
  | depth + 1, '[' :: s =>
    (readItems (readValue depth) (s.length + 1) s).map fun parts => (.list parts.1, parts.2)
  | depth + 1, '\x7b' :: s =>
    match skipSpaces s with
    | '\x7d' :: s => some (.closed [], s)
    | s => (readClosed (readValue depth) (s.length + 1) [] s).map fun parts =>
        (.closed parts.1, parts.2)
  | _, s => readScalar s

/-- The names of a header after its brackets. -/
def readHeader (s : List Char) : Option (List String × List Char) := do
  let (keys, s) ← readKey depthLimit s
  return (keys, ← after? ']' s)

/-- One line that is not blank, added to what has been read. -/
def readLine (d : Draft) : List Char → Option (Draft × List Char)
  | '[' :: '[' :: s => do
    let (keys, s) ← readHeader s
    return (← d.addItem keys, ← afterLine? (← after? ']' s))
  | '[' :: s => do
    let (keys, s) ← readHeader s
    return (← d.addHeader keys, ← afterLine? s)
  | '#' :: s => do return (d, ← afterLine? ('#' :: s))
  | s => do
    let ((keys, v), s) ← readBinding (readValue depthLimit) s
    return (← d.addValue keys v, ← afterLine? s)

/-- The lines of a document added to what has been read. -/
def readLines : (budget : Nat) → Draft → List Char → Option Draft
  | 0, _, _ => none
  | budget + 1, d, s =>
    match skipSpaces s with
    | [] => some d
    | s =>
      match afterNewline? s with
      | some s => readLines budget d s
      | none => do
        let (d, s) ← readLine d s
        readLines budget d s

/-- The text without the mark of byte order it may begin with. -/
def skipByteOrderMark : List Char → List Char
  | '\ufeff' :: s => s
  | s => s

/-- The table that a document denotes. -/
def read? (document : String) : Option Value :=
  let s := skipByteOrderMark document.toList
  (readLines (s.length + 1) .empty s).map fun d => .table .header d.root

end SectionLedger.Toml
