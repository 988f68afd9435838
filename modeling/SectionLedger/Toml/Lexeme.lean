import SectionLedger.Text.Hex

/-!
# Blanks, comments, strings and keys

The smallest parts of a TOML document.  Each function reads at the front of a text and returns what
is left.  A line ends in a line feed, with or without a carriage return before it; no other control
character but the tab may stand anywhere.  A string stands between quotes or between apostrophes,
which escapes are for; three of either allow it to go on over several lines.
-/

namespace SectionLedger.Toml

/-- Whether a character is a blank within a line. -/
def isSpace (c : Char) : Bool := c == ' ' || c == '\t'

/-- Whether a character may stand in a comment or a string: every one but the control characters, of
which only the tab may. -/
def isOrdinary (c : Char) : Bool := c == '\t' || (0x20 ≤ c.toNat && c.toNat != 0x7F)

/-- The text without the blanks it begins with. -/
def skipSpaces (s : List Char) : List Char := s.dropWhile isSpace

/-- The text after the end of line that it begins with. -/
def afterNewline? : List Char → Option (List Char)
  | '\n' :: s => some s
  | '\r' :: '\n' :: s => some s
  | _ => none

/-- The text without the comment it begins with. -/
def skipComment : List Char → List Char
  | '#' :: s => s.dropWhile isOrdinary
  | s => s

/-- The text after what may follow a key and its value, or a header: blanks, a comment, and the end
of the line or of the text. -/
def afterLine? (s : List Char) : Option (List Char) :=
  match skipComment (skipSpaces s) with
  | [] => some []
  | r => afterNewline? r

/-- The text without the blanks, comments and ends of lines it begins with. -/
def skipTrivia : (inComment : Bool) → List Char → List Char
  | _, '\n' :: s => skipTrivia false s
  | _, '\r' :: '\n' :: s => skipTrivia false s
  | false, '#' :: s => skipTrivia true s
  | inComment, c :: s =>
    if isSpace c || (inComment && isOrdinary c) then skipTrivia inComment s else c :: s
  | _, [] => []

/-- The character that a backslash and a letter stand for. -/
def escaped? (c : Char) : Option Char :=
  if c = '"' ∨ c = '\\' then some c
  else if c = 'b' then some '\x08'
  else if c = 't' then some '\t'
  else if c = 'n' then some '\n'
  else if c = 'f' then some '\x0c'
  else if c = 'r' then some '\r'
  else none

/-- The character whose number is written in hexadecimal digits. -/
def numbered? (digits : List Char) : Option Char :=
  match Text.hexNumber? digits with
  | some n => if n.isValidChar then some (Char.ofNat n) else none
  | none => none

/-- Puts a character in front of what has been read after it. -/
def prepend (c : Char) (parts : List Char × List Char) : List Char × List Char :=
  (c :: parts.1, parts.2)

/-- A string after its quote. -/
def readQuoted : List Char → Option (List Char × List Char)
  | [] => none
  | '"' :: s => some ([], s)
  | '\\' :: 'u' :: a :: b :: c :: d :: s => do
    return prepend (← numbered? [a, b, c, d]) (← readQuoted s)
  | '\\' :: 'U' :: a :: b :: c :: d :: e :: f :: g :: h :: s => do
    return prepend (← numbered? [a, b, c, d, e, f, g, h]) (← readQuoted s)
  | '\\' :: c :: s => do return prepend (← escaped? c) (← readQuoted s)
  | c :: s => if isOrdinary c then (readQuoted s).map (prepend c) else none

/-- A string after its apostrophe. -/
def readLiteral : List Char → Option (List Char × List Char)
  | [] => none
  | '\'' :: s => some ([], s)
  | c :: s => if isOrdinary c then (readLiteral s).map (prepend c) else none

/-- The end of a string after three quotes or apostrophes: up to two more of them belong to it. -/
def closing (quote : Char) (s : List Char) : List Char × List Char :=
  let more := (s.take 2).takeWhile (· == quote)
  (more, s.drop more.length)

/-- Whether a line ends after the blanks that a text begins with. -/
def endsLine (s : List Char) : Bool := (afterNewline? (skipSpaces s)).isSome

/-- A string after three quotes; `joining` says whether blanks and ends of lines are passed over, as
they are after a backslash at the end of a line. -/
def readLongQuoted : (joining : Bool) → List Char → Option (List Char × List Char)
  | _, [] => none
  | joining, '\n' :: s =>
    if joining then readLongQuoted true s else (readLongQuoted false s).map (prepend '\n')
  | joining, '\r' :: '\n' :: s =>
    if joining then readLongQuoted true s else (readLongQuoted false s).map (prepend '\n')
  | _, '"' :: '"' :: '"' :: s => some (closing '"' s)
  | _, '\\' :: 'u' :: a :: b :: c :: d :: s => do
    return prepend (← numbered? [a, b, c, d]) (← readLongQuoted false s)
  | _, '\\' :: 'U' :: a :: b :: c :: d :: e :: f :: g :: h :: s => do
    return prepend (← numbered? [a, b, c, d, e, f, g, h]) (← readLongQuoted false s)
  | _, '\\' :: c :: s =>
    if endsLine (c :: s) then readLongQuoted true (c :: s)
    else do return prepend (← escaped? c) (← readLongQuoted false s)
  | joining, c :: s =>
    if joining && isSpace c then readLongQuoted true s
    else if isOrdinary c then (readLongQuoted false s).map (prepend c)
    else none

/-- A string after three apostrophes. -/
def readLongLiteral : List Char → Option (List Char × List Char)
  | [] => none
  | '\n' :: s => (readLongLiteral s).map (prepend '\n')
  | '\r' :: '\n' :: s => (readLongLiteral s).map (prepend '\n')
  | '\'' :: '\'' :: '\'' :: s => some (closing '\'' s)
  | c :: s => if isOrdinary c then (readLongLiteral s).map (prepend c) else none

/-- The text without the end of line it begins with. -/
def skipNewline (s : List Char) : List Char := (afterNewline? s).getD s

/-- A string. -/
def readText : List Char → Option (List Char × List Char)
  | '"' :: '"' :: '"' :: s => readLongQuoted false (skipNewline s)
  | '\'' :: '\'' :: '\'' :: s => readLongLiteral (skipNewline s)
  | '"' :: s => readQuoted s
  | '\'' :: s => readLiteral s
  | _ => none

/-- Whether a character may stand in a name without quotes. -/
def isBare (c : Char) : Bool := c.isAlphanum || c == '_' || c == '-'

/-- One name of a key: a string within one line, or letters, digits, dashes and underscores. -/
def readName : List Char → Option (List Char × List Char)
  | '"' :: s => readQuoted s
  | '\'' :: s => readLiteral s
  | s =>
    if (s.takeWhile isBare).isEmpty then none
    else some (s.takeWhile isBare, s.dropWhile isBare)

/-- A key of at most a number of names, which dots separate; blanks may stand around each. -/
def readKey : (limit : Nat) → List Char → Option (List String × List Char)
  | 0, _ => none
  | limit + 1, s => do
    let (name, s) ← readName (skipSpaces s)
    match skipSpaces s with
    | '.' :: s => (readKey limit s).map fun parts => (String.ofList name :: parts.1, parts.2)
    | s => some ([String.ofList name], s)

end SectionLedger.Toml
