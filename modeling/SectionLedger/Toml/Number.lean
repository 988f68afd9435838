import SectionLedger.Calendar
import SectionLedger.Text.Digit
import SectionLedger.Text.Hex
import SectionLedger.Toml.Value

/-!
# Numbers, dates and times

Underscores may stand between the digits of a number.  A whole number fits 64 bits with a sign; a
number with a fraction or an exponent must not be too large for a double, though one with a minus
may.  Of dates and times only their being right matters, because no record has one.
-/

namespace SectionLedger.Toml

/-- The digits of a class at the front of a text, where an underscore may stand before each. -/
def moreDigits (isMember : Char → Bool) : List Char → List Char × List Char
  | [] => ([], [])
  | '_' :: c :: s =>
    if isMember c then
      let parts := moreDigits isMember s
      (c :: parts.1, parts.2)
    else ([], '_' :: c :: s)
  | c :: s =>
    if isMember c then
      let parts := moreDigits isMember s
      (c :: parts.1, parts.2)
    else ([], c :: s)

/-- One or more digits of a class. -/
def someDigits (isMember : Char → Bool) : List Char → Option (List Char × List Char)
  | [] => none
  | c :: s =>
    if isMember c then
      let parts := moreDigits isMember s
      some (c :: parts.1, parts.2)
    else none

/-- The digits of a whole number, which has no superfluous zero. -/
def wholeDigits : List Char → Option (List Char × List Char)
  | '0' :: s => some (['0'], s)
  | s => someDigits Char.isDigit s

/-- The text after the sign it may begin with; whether that is a minus. -/
def readSign : List Char → Bool × List Char
  | '-' :: s => (true, s)
  | '+' :: s => (false, s)
  | s => (false, s)

/-- The whole number of a magnitude, if it fits 64 bits. -/
def signed? (negative : Bool) (n : Nat) : Option Value :=
  if negative then if n ≤ Text.wordLimit / 2 then some (.int (-n)) else none
  else if n < Text.wordLimit / 2 then some (.int n) else none

/-- A whole number after the letter that says which digits it is written in. -/
def readPrefixed (isMember : Char → Bool) (base : Nat) (s : List Char) :
    Option (Value × List Char) := do
  let (digits, s) ← someDigits isMember s
  let n ← digits.foldlM (fun n c => (Text.hexValue? c).map (base * n + ·)) 0
  return (← signed? false n, s)

/-- The smallest number that is rounded to infinity: half a step above the largest double. -/
def overflowBound : Nat := Nat.pow 2 1024 - Nat.pow 2 970

/-- Whether a number times a power of ten is too large for a double.  Numbers of more than 310
digits before the point are, numbers of fewer than 300 are not. -/
def overflows (n : Nat) (exponent : Int) : Bool :=
  let digits : Int := (Nat.toDigits 10 n).length + exponent
  if n = 0 ∨ digits < 300 then false
  else if 310 < digits then true
  else overflowBound * Nat.pow 10 (-exponent).toNat ≤ n * Nat.pow 10 exponent.toNat

/-- The fraction that a text may begin with: its digits. -/
def readFraction : List Char → Option (List Char × List Char)
  | '.' :: s => someDigits Char.isDigit s
  | s => some ([], s)

/-- The exponent that a text may begin with. -/
def readExponent : List Char → Option (Option Int × List Char)
  | c :: s =>
    if c = 'e' ∨ c = 'E' then do
      let (negative, s) := readSign s
      let (digits, s) ← someDigits Char.isDigit s
      let n : Int := Text.digitsValue digits
      return (some (if negative then -n else n), s)
    else some (none, c :: s)
  | [] => some (none, [])

/-- A number in decimal digits, after its sign. -/
def readDecimal (negative : Bool) (s : List Char) : Option (Value × List Char) := do
  let (whole, s) ← wholeDigits s
  let (fraction, s) ← readFraction s
  let (exponent, s) ← readExponent s
  if fraction.isEmpty && exponent.isNone then
    return (← signed? negative (Text.digitsValue whole), s)
  else
    let n := Text.digitsValue (whole ++ fraction)
    if !negative && overflows n (exponent.getD 0 - fraction.length) then none
    else return (.float, s)

/-- A number. -/
def readNumber : List Char → Option (Value × List Char)
  | '0' :: 'x' :: s => readPrefixed (fun c => (Text.hexValue? c).isSome) 16 s
  | '0' :: 'o' :: s => readPrefixed (fun c => '0' ≤ c && c ≤ '7') 8 s
  | '0' :: 'b' :: s => readPrefixed (fun c => c == '0' || c == '1') 2 s
  | s =>
    match readSign s with
    | (_, 'i' :: 'n' :: 'f' :: s) => some (.float, s)
    | (_, 'n' :: 'a' :: 'n' :: s) => some (.float, s)
    | (negative, s) => readDecimal negative s

/-- A number of exactly two digits within bounds. -/
def readPair (low high : Nat) : List Char → Option (Nat × List Char)
  | a :: b :: s =>
    let n := Text.digitsValue [a, b]
    if a.isDigit ∧ b.isDigit ∧ low ≤ n ∧ n ≤ high then some (n, s) else none
  | _ => none

/-- The text after a character that it begins with. -/
def after? (c : Char) : List Char → Option (List Char)
  | [] => none
  | d :: s => if c = d then some s else none

/-- The text after the time of day that it begins with. -/
def afterTime? (s : List Char) : Option (List Char) := do
  let (_, s) ← readPair 0 23 s
  let (_, s) ← readPair 0 59 (← after? ':' s)
  let (_, s) ← readPair 0 60 (← after? ':' s)
  match s with
  | '.' :: c :: s => if c.isDigit then some (s.dropWhile Char.isDigit) else some ('.' :: c :: s)
  | s => some s

/-- The text after the offset from universal time that it may begin with. -/
def afterOffset? : List Char → Option (List Char)
  | c :: s =>
    if c = 'Z' ∨ c = 'z' then some s
    else if c = '+' ∨ c = '-' then do
      let (_, s) ← readPair 0 23 s
      let (_, s) ← readPair 0 59 (← after? ':' s)
      return s
    else some (c :: s)
  | [] => some []

/-- The text after the date that it begins with, which may go on with a time of day. -/
def afterDate? (s : List Char) : Option (List Char) := do
  let year := s.take 4
  let (month, s) ← readPair 1 12 (← after? '-' (s.drop 4))
  let (day, s) ← readPair 1 31 (← after? '-' s)
  if daysInMonth (Text.digitsValue year) month < day then none
  match s with
  | c :: r =>
    if c = 'T' ∨ c = 't' ∨ c = ' ' then
      match afterTime? r with
      | some r => afterOffset? r
      | none => some s
    else some s
  | [] => some []

/-- Whether a text begins with a year and a dash. -/
def beginsDate (s : List Char) : Bool :=
  (s.take 4).all Char.isDigit && s[4]? == some '-'

/-- Whether a text begins with an hour and a colon. -/
def beginsTime (s : List Char) : Bool :=
  (s.take 2).all Char.isDigit && s[2]? == some ':'

/-- A number, a date or a time. -/
def readNumberOrMoment (s : List Char) : Option (Value × List Char) :=
  if beginsDate s then (afterDate? s).map (Value.moment, ·)
  else if beginsTime s then (afterTime? s).map (Value.moment, ·)
  else readNumber s

end SectionLedger.Toml
