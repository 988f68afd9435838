import SectionLedger.Text.Hex

/-!
# Printing TOML

A document of tables, each with a header and with texts and lists of texts under plain names.  A
text is written in the first form of these that suits it: between apostrophes, as it is, if quotes
or backslashes in it would have to be escaped and it may stand there; between quotes, with escapes,
otherwise.  A text of several lines stands between three of either, and begins on a line of its own.
-/

namespace SectionLedger.Toml

/-- A value that is printed under a name. -/
inductive Field where
  | text (s : String)
  | texts (items : List String)
  deriving DecidableEq, Repr

/-- A hexadecimal digit in upper case. -/
def upperHexDigit (n : Nat) : Char := (Text.hexDigit n).toUpper

/-- A character between quotes. -/
def escapeChar (c : Char) : List Char :=
  if c = '"' then ['\\', '"']
  else if c = '\\' then ['\\', '\\']
  else if c = '\n' then ['\\', 'n']
  else if c = '\r' then ['\\', 'r']
  else if c = '\t' then ['\\', 't']
  else if c = '\x08' then ['\\', 'b']
  else if c = '\x0c' then ['\\', 'f']
  else if c.toNat < 0x20 ∨ c.toNat = 0x7F then
    ['\\', 'u', '0', '0', upperHexDigit (c.toNat / 16), upperHexDigit (c.toNat % 16)]
  else [c]

/-- A character between three quotes, where lines may end. -/
def escapeLongChar (c : Char) : List Char := if c = '\n' then ['\n'] else escapeChar c

/-- Whether a text holds three apostrophes in a row, or ends in one. -/
def breaksLiteral : List Char → Bool
  | [] => false
  | ['\''] => true
  | '\'' :: '\'' :: '\'' :: _ => true
  | _ :: s => breaksLiteral s

/-- Whether a character may stand between apostrophes. -/
def isLiteral (c : Char) : Bool := c == '\t' || c == '\n' || (0x20 ≤ c.toNat && c.toNat != 0x7F)

/-- Whether a text is written between apostrophes. -/
def prefersLiteral (s : List Char) : Bool :=
  (s.contains '"' || s.contains '\\') && s.all isLiteral && !breaksLiteral s

/-- Three of a character. -/
def triple (c : Char) : List Char := [c, c, c]

/-- A text in quotes or apostrophes. -/
def printText (s : List Char) : List Char :=
  if prefersLiteral s then
    if s.contains '\n' then triple '\'' ++ '\n' :: s ++ triple '\''
    else if s.contains '\'' then triple '\'' ++ s ++ triple '\''
    else '\'' :: s ++ ['\'']
  else if s.contains '\n' then triple '"' ++ '\n' :: s.flatMap escapeLongChar ++ triple '"'
  else '"' :: s.flatMap escapeChar ++ ['"']

/-- A text on a line of its own in a list. -/
def itemLine (s : String) : List Char :=
  [' ', ' ', ' ', ' '] ++ printText s.toList ++ [',', '\n']

/-- A list of texts: on one line if there are fewer than two, else each on a line of its own. -/
def printTexts : List String → List Char
  | [] => ['[', ']']
  | [s] => '[' :: printText s.toList ++ [']']
  | items =>
    '[' :: '\n' :: items.flatMap itemLine ++ [']']

/-- A value. -/
def Field.print : Field → List Char
  | text s => printText s.toList
  | texts items => printTexts items

/-- A name and its value on a line. -/
def printBinding (name : String) (field : Field) : List Char :=
  name.toList ++ [' ', '=', ' '] ++ field.print ++ ['\n']

/-- A header and what stands below it. -/
def printTable (name : String) (fields : List (String × Field)) : List Char :=
  '[' :: name.toList ++ [']', '\n'] ++ fields.flatMap fun f => printBinding f.1 f.2

/-- Tables with a blank line between them. -/
def printTables : List (String × List (String × Field)) → List Char
  | [] => []
  | [t] => printTable t.1 t.2
  | t :: ts => printTable t.1 t.2 ++ '\n' :: printTables ts

end SectionLedger.Toml
