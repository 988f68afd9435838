/-!
# Hexadecimal digits

The digits in which escapes write the numbers of characters.
-/

namespace SectionLedger.Text

/-- The digit of a number below sixteen, in lower case. -/
def hexDigit (n : Nat) : Char :=
  if n < 10 then Char.ofNat ('0'.toNat + n) else Char.ofNat ('a'.toNat + (n - 10))

/-- The value of a hexadecimal digit. -/
def hexValue? (c : Char) : Option Nat :=
  if '0' ≤ c ∧ c ≤ '9' then some (c.toNat - '0'.toNat)
  else if 'a' ≤ c ∧ c ≤ 'f' then some (c.toNat - 'a'.toNat + 10)
  else if 'A' ≤ c ∧ c ≤ 'F' then some (c.toNat - 'A'.toNat + 10)
  else none

/-- The number that hexadecimal digits denote, read after the digits already read. -/
def hexNumberFrom? (n : Nat) : List Char → Option Nat
  | [] => some n
  | c :: s => (hexValue? c).bind fun v => hexNumberFrom? (16 * n + v) s

/-- The number that hexadecimal digits denote. -/
def hexNumber? (s : List Char) : Option Nat := hexNumberFrom? 0 s

end SectionLedger.Text
