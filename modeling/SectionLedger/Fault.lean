/-!
# Faults

What can go wrong in the ledger and its inputs, one constructor for each cause, and the text shown
for it.
-/

namespace SectionLedger

/-- Why a file could not be read or written. -/
inductive FileFault where
  | missing
  | notDirectory
  | isDirectory
  | notText
  /-- No file can have the name. -/
  | badName
  /-- A name, or the path, has more bytes than it can have. -/
  | tooLong
  deriving DecidableEq, Repr

namespace FileFault

/-- The text shown for a file fault. -/
def message : FileFault → String
  | missing => "No such file or directory (os error 2)"
  | notDirectory => "Not a directory (os error 20)"
  | isDirectory => "Is a directory (os error 21)"
  | notText => "stream did not contain valid UTF-8"
  | badName => "file name contained an unexpected NUL byte"
  | tooLong => "File name too long (os error 36)"

end FileFault

/-- The constructs that have to be closed before the lines end. -/
inductive Construct where
  | conditional
  | blockComment
  | procedureBody
  | asmBlock
  | asmStatement
  | asmFloor
  deriving DecidableEq, Repr

namespace Construct

/-- The name of a construct in a message. -/
def label : Construct → String
  | conditional => "conditional directive block"
  | blockComment => "block comment"
  | procedureBody => "procedure body"
  | asmBlock => "assembly block"
  | asmStatement => "assembly statement"
  | asmFloor => "__asm block"

end Construct

/-- What can go wrong in the ledger and its inputs. -/
inductive Fault where
  /-- A file could not be written. -/
  | unwritable (cause : FileFault)
  /-- A file could not be read. -/
  | unreadable (path : String) (cause : FileFault)
  /-- A range of lines is empty or reaches outside the file. -/
  | badRange (first last total : Nat)
  /-- A new section does not nest with one that is stored. -/
  | conflict (first last storedFirst storedLast : Nat)
  /-- A construct is open where the lines end. -/
  | unterminated (construct : Construct) (line : Nat)
  /-- Compiler output does not mention the file. -/
  | noDelimiter (delimiter : String)
  | unknownKind (name : String)
  | unknownStatus (label : String)
  /-- A stored ledger is not the JSON text of one. -/
  | malformedJson
  deriving DecidableEq, Repr

namespace Fault

/-- The text shown for a fault. -/
def message : Fault → String
  | unwritable cause => "IO error: " ++ cause.message
  | unreadable path cause => "Failed to read file " ++ path ++ ": " ++ cause.message
  | badRange first last total =>
    s!"Invalid line range {first}-{last} for a file of {total} lines"
  | conflict first last storedFirst storedLast =>
    s!"Section {first}-{last} conflicts with existing section {storedFirst}-{storedLast}"
  | unterminated construct line =>
    "Unterminated " ++ construct.label ++ s!" starting at line {line}"
  | noDelimiter delimiter =>
    "Diagnostic text does not contain the delimiter \x60" ++ delimiter ++ "\x60"
  | unknownKind name => "Unknown section kind: " ++ name
  | unknownStatus label => "Unknown section status: " ++ label
  | malformedJson => "JSON serialization error: malformed text"

/-- The faults that lie behind a fault, outermost first, as texts. -/
def causes : Fault → List String
  | unwritable cause => [cause.message]
  | unreadable _ cause => [cause.message]
  | malformedJson => ["malformed text"]
  | _ => []

end Fault

end SectionLedger
