import SectionLedger.Json.Value
import SectionLedger.Text.Hex

/-!
# Printing JSON

Two forms of the same value: the compact form has no white space, the pretty form puts every item
and every member on a line of its own, indented by two spaces a level.
-/

namespace SectionLedger.Json

/-- A character of a string: quotes, backslashes and control characters are escaped. -/
def escapeChar (c : Char) : List Char :=
  if c = '"' then ['\\', '"']
  else if c = '\\' then ['\\', '\\']
  else if c = '\n' then ['\\', 'n']
  else if c = '\r' then ['\\', 'r']
  else if c = '\t' then ['\\', 't']
  else if c = '\x08' then ['\\', 'b']
  else if c = '\x0c' then ['\\', 'f']
  else if c.toNat < 0x20 then
    ['\\', 'u', '0', '0', Text.hexDigit (c.toNat / 16), Text.hexDigit (c.toNat % 16)]
  else [c]

/-- A string in quotes. -/
def printText (s : String) : List Char := '"' :: s.toList.flatMap escapeChar ++ ['"']

/-- A number in decimal digits. -/
def printNat (n : Nat) : List Char := Nat.toDigits 10 n

/-- A key in quotes. -/
def printKey : Key → List Char
  | .name s => printText s
  | .number n => '"' :: printNat n ++ ['"']

mutual

/-- The compact form of a value. -/
def printCompact : Value → List Char
  | .null => ['n', 'u', 'l', 'l']
  | .bool true => ['t', 'r', 'u', 'e']
  | .bool false => ['f', 'a', 'l', 's', 'e']
  | .nat n => printNat n
  | .negative n => '-' :: printNat n
  | .text s => printText s
  | .list items => '[' :: compactItems items
  | .object members => '\x7b' :: compactMembers members
  | .foreign => ['n', 'u', 'l', 'l']

/-- The items of a list, up to the closing bracket. -/
def compactItems : List Value → List Char
  | [] => [']']
  | [v] => printCompact v ++ [']']
  | v :: vs => printCompact v ++ ',' :: compactItems vs

/-- The members of an object, up to the closing bracket. -/
def compactMembers : List (Key × Value) → List Char
  | [] => ['\x7d']
  | [(k, v)] => printKey k ++ ':' :: printCompact v ++ ['\x7d']
  | (k, v) :: ms => printKey k ++ ':' :: printCompact v ++ ',' :: compactMembers ms

end

/-- A line feed and the indentation of a level. -/
def newLine (level : Nat) : List Char := '\n' :: List.replicate (2 * level) ' '

mutual

/-- The pretty form of a value at a level of indentation. -/
def printPretty (level : Nat) : Value → List Char
  | .null => ['n', 'u', 'l', 'l']
  | .bool true => ['t', 'r', 'u', 'e']
  | .bool false => ['f', 'a', 'l', 's', 'e']
  | .nat n => printNat n
  | .negative n => '-' :: printNat n
  | .text s => printText s
  | .list items => '[' :: prettyItems level items
  | .object members => '\x7b' :: prettyMembers level members
  | .foreign => ['n', 'u', 'l', 'l']

/-- The items of a list at a level, up to the closing bracket. -/
def prettyItems (level : Nat) : List Value → List Char
  | [] => [']']
  | [v] => newLine (level + 1) ++ printPretty (level + 1) v ++ newLine level ++ [']']
  | v :: vs => newLine (level + 1) ++ printPretty (level + 1) v ++ ',' :: prettyItems level vs

/-- The members of an object at a level, up to the closing bracket. -/
def prettyMembers (level : Nat) : List (Key × Value) → List Char
  | [] => ['\x7d']
  | [(k, v)] =>
    newLine (level + 1) ++ printKey k ++ ':' :: ' ' :: printPretty (level + 1) v ++
      newLine level ++ ['\x7d']
  | (k, v) :: ms =>
    newLine (level + 1) ++ printKey k ++ ':' :: ' ' :: printPretty (level + 1) v ++
      ',' :: prettyMembers level ms

end

/-- The compact text of a value. -/
def Value.compact (v : Value) : String := String.ofList (printCompact v)

/-- The pretty text of a value. -/
def Value.pretty (v : Value) : String := String.ofList (printPretty 0 v)

end SectionLedger.Json
