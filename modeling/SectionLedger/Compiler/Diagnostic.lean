import SectionLedger.Fault
import SectionLedger.Status
import SectionLedger.Text.Blank
import SectionLedger.Text.Digit
import SectionLedger.Text.Split

/-!
# Compiler messages

A compiler names the file it compiles before each line number, as in `source.c:3: warning`.  The
name and a colon are the *delimiter* of a compiler output.  `Diagnostic.ofOutput` cuts the whole
output at the delimiter, so that a message may run over several lines; `ErrorLine.ofOutput` keeps
the physical lines and marks those that begin with the delimiter.  Line number zero means that a
message is not attributed to a line.
-/

namespace SectionLedger

open Text

/-- A message of the compiler, with the source line that it is about. -/
structure Diagnostic where
  line : Nat
  text : String
  deriving DecidableEq, Repr

/-- A physical line of compiler output, with the source line that it is about. -/
structure ErrorLine where
  text : String
  line : Nat
  deriving DecidableEq, Repr

/-- What a compiler writes before a line number of the file with this name. -/
def delimiter (name : String) : List Char := name.toList ++ [':']

/-- Refuses an output that says something and never mentions the file. -/
def checkMentions (name output : String) : Except Fault Unit :=
  if (trim output.toList).isEmpty || (cut? (delimiter name) output.toList).isSome then .ok ()
  else .error (.noDelimiter (String.ofList (delimiter name)))

namespace Diagnostic

/-- Whether the message is about a line. -/
def isAttributed (d : Diagnostic) : Bool := 0 < d.line

/-- The message of a fragment that follows a delimiter. -/
def ofFragment (fragment : List Char) : Diagnostic :=
  ⟨leadingNumber (trimEnd fragment), String.ofList (trimEnd fragment)⟩

/-- The message of the text before the first delimiter, unless it is blank. -/
def ofLead (lead : List Char) : List Diagnostic :=
  if (trim lead).isEmpty then [] else [⟨0, String.ofList (trim lead)⟩]

/-- The messages of a compiler output about the file with this name. -/
def ofOutput (name output : String) : List Diagnostic :=
  match fragments (delimiter name) output.toList with
  | [] => []
  | lead :: rest => ofLead lead ++ rest.map ofFragment

end Diagnostic

namespace ErrorLine

/-- The number that a text begins with, read from all its leading decimal digits. -/
def numberAtFront (s : List Char) : Nat := (readWord? (s.takeWhile isDecimalDigit)).getD 0

/-- The source line that a physical line is about. -/
def lineOf (name : String) (s : List Char) : Nat :=
  if (delimiter name).isPrefixOf s then numberAtFront (s.drop (delimiter name).length) else 0

/-- The physical lines of a compiler output about the file with this name. -/
def ofOutput (name output : String) : List ErrorLine :=
  (splitLines output.toList).map fun s => ⟨String.ofList s, lineOf name s⟩

end ErrorLine

/-- The status of a compilation: without a listing the file does not compile, and with one it
compiles without warnings if no message is attributed. -/
def Status.ofOutcome (hasListing : Bool) (diagnostics : List Diagnostic) : Status :=
  if !hasListing then .doesNotCompile
  else if diagnostics.any Diagnostic.isAttributed then .compiledWithWarnings
  else .compiledWithoutWarnings

end SectionLedger
