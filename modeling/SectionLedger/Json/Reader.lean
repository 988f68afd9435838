import SectionLedger.Json.Value
import SectionLedger.Text.Digit
import SectionLedger.Text.Hex

/-!
# Reading JSON

The reader accepts exactly the JSON grammar: blanks are space, tab, line feed and carriage return, a
string holds no control character, a number has no superfluous zero.  Each function reads at the
front of a text and returns what is left.  Values nest, so they are read with a budget that every
step lowers; a budget of twice the length of the text is never used up.
-/

namespace SectionLedger.Json

/-- The text without the blanks it begins with. -/
def skipBlanks : List Char → List Char
  | [] => []
  | c :: s => if c = ' ' ∨ c = '\n' ∨ c = '\t' ∨ c = '\r' then skipBlanks s else c :: s

/-- What stands for a character in a string. -/
inductive Unit16 where
  /-- A character written as it is, or by an escape. -/
  | char (c : Char)
  /-- Half of a character, written by an escape. -/
  | half (n : Nat)

/-- The parts of a string up to its closing quote, and what is left after it. -/
def readUnits : List Char → Option (List Unit16 × List Char)
  | [] => none
  | '"' :: s => some ([], s)
  | '\\' :: 'u' :: a :: b :: c :: d :: s => do
    let n ← Text.hexNumber? [a, b, c, d]
    let (units, rest) ← readUnits s
    return ((if 0xD800 ≤ n ∧ n < 0xE000 then .half n else .char (Char.ofNat n)) :: units, rest)
  | '\\' :: e :: s => do
    let c ← match e with
      | '"' => some '"'
      | '\\' => some '\\'
      | '/' => some '/'
      | 'b' => some '\x08'
      | 'f' => some '\x0c'
      | 'n' => some '\n'
      | 'r' => some '\r'
      | 't' => some '\t'
      | _ => none
    let (units, rest) ← readUnits s
    return (.char c :: units, rest)
  | c :: s => do
    if c.toNat < 0x20 then none
    let (units, rest) ← readUnits s
    return (.char c :: units, rest)

/-- The text of the parts of a string; halves count only as a leading one and a trailing one. -/
def textOf? : List Unit16 → Option (List Char)
  | [] => some []
  | .char c :: units => (textOf? units).map (c :: ·)
  | .half n :: .half m :: units =>
    if n < 0xDC00 ∧ 0xDC00 ≤ m then
      (textOf? units).map (Char.ofNat (0x10000 + 1024 * (n - 0xD800) + (m - 0xDC00)) :: ·)
    else none
  | .half _ :: _ => none

/-- The digits at the front of a text, of which there is at least one. -/
def readDigits (s : List Char) : Option (List Char × List Char) :=
  let digits := s.takeWhile Char.isDigit
  if digits.isEmpty then none else some (digits, s.dropWhile Char.isDigit)

/-- The digits of a whole number, which has no superfluous zero. -/
def readWhole : List Char → Option (List Char × List Char)
  | '0' :: s => some (['0'], s)
  | s => readDigits s

/-- The text after the fraction that it may begin with; whether there is one. -/
def skipFraction : List Char → Option (Bool × List Char)
  | '.' :: s => (readDigits s).map fun parts => (true, parts.2)
  | s => some (false, s)

/-- The text after the exponent that it may begin with; whether there is one. -/
def skipExponent : List Char → Option (Bool × List Char)
  | c :: s =>
    if c = 'e' ∨ c = 'E' then
      (readDigits (match s with
        | '+' :: r => r
        | '-' :: r => r
        | r => r)).map fun parts => (true, parts.2)
    else some (false, c :: s)
  | [] => some (false, [])

/-- A number without fraction and exponent is a whole number; a zero below zero is not one. -/
def readNumber (s : List Char) : Option (Value × List Char) := do
  let (negative, s) := match s with
    | '-' :: r => (true, r)
    | r => (false, r)
  let (digits, s) ← readWhole s
  let (fraction, s) ← skipFraction s
  let (exponent, s) ← skipExponent s
  let n := Text.digitsValue digits
  return (if fraction || exponent || negative && n == 0 then .foreign
    else if negative then .negative n else .nat n, s)

/-- The key of a member, after its opening quote; a key without a text has none. -/
def readKey (s : List Char) : Option (Option Key × List Char) :=
  match readWhole s with
  | some (digits, '"' :: r) => some (some (.number (Text.digitsValue digits)), r)
  | _ => (readUnits s).map fun parts =>
    ((textOf? parts.1).map fun t => .name (String.ofList t), parts.2)

/-- The text after a word that it begins with. -/
def afterWord? (word s : List Char) : Option (List Char) :=
  if word.isPrefixOf s then some (s.drop word.length) else none

/-- The members whose keys all have a text. -/
def namedMembers? (members : List (Option Key × Value)) : Option (List (Key × Value)) :=
  members.mapM fun m => m.1.map fun key => (key, m.2)

mutual

/-- A value, after blanks. -/
def readValue : Nat → List Char → Option (Value × List Char)
  | 0, _ => none
  | budget + 1, s =>
    match skipBlanks s with
    | [] => none
    | '"' :: r => (readUnits r).map fun parts =>
      ((textOf? parts.1).elim .foreign fun t => .text (String.ofList t), parts.2)
    | '[' :: r =>
      match skipBlanks r with
      | ']' :: r => some (.list [], r)
      | _ => (readItems budget r).map fun parts => (.list parts.1, parts.2)
    | '\x7b' :: r =>
      match skipBlanks r with
      | '\x7d' :: r => some (.object [], r)
      | _ => (readMembers budget r).map fun parts =>
        ((namedMembers? parts.1).elim .foreign .object, parts.2)
    | 'n' :: r => (afterWord? ['u', 'l', 'l'] r).map fun r => (.null, r)
    | 't' :: r => (afterWord? ['r', 'u', 'e'] r).map fun r => (.bool true, r)
    | 'f' :: r => (afterWord? ['a', 'l', 's', 'e'] r).map fun r => (.bool false, r)
    | c :: r => readNumber (c :: r)

/-- The items of a list, of which there is at least one, up to the closing bracket. -/
def readItems : Nat → List Char → Option (List Value × List Char)
  | 0, _ => none
  | budget + 1, s => do
    let (v, r) ← readValue budget s
    match skipBlanks r with
    | ',' :: r => (readItems budget r).map fun parts => (v :: parts.1, parts.2)
    | ']' :: r => some ([v], r)
    | _ => none

/-- The members of an object, of which there is at least one, up to the closing bracket; a key
without a text has none. -/
def readMembers : Nat → List Char → Option (List (Option Key × Value) × List Char)
  | 0, _ => none
  | budget + 1, s => do
    let (key, r) ← match skipBlanks s with
      | '"' :: r => readKey r
      | _ => none
    match skipBlanks r with
    | ':' :: r => do
      let (v, r) ← readValue budget r
      match skipBlanks r with
      | ',' :: r => (readMembers budget r).map fun parts => ((key, v) :: parts.1, parts.2)
      | '\x7d' :: r => some ([(key, v)], r)
      | _ => none
    | _ => none

end

/-- The value that a whole text denotes. -/
def read? (text : String) : Option Value := do
  let s := text.toList
  let (v, rest) ← readValue (2 * s.length + 2) s
  if (skipBlanks rest).isEmpty then some v else none

end SectionLedger.Json
