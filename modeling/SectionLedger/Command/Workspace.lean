import SectionLedger.Calendar
import SectionLedger.Compiler.Program
import SectionLedger.Ledger.Saved
import SectionLedger.Source

/-!
# Workspaces

A workspace is what a command is run in: a directory, the programs that can be run, and the time.  A
command may change the files of the directory.  What it leaves besides is an exit code, what it
printed, what it remarked on the way, and the complaint it ended with, if it did.
-/

namespace SectionLedger

/-- What a command is run in. -/
structure Workspace where
  directory : Directory
  programs : Programs
  now : Instant

namespace Workspace

/-- The text of a file. -/
def readText (w : Workspace) (path : String) : Except Fault String :=
  (w.directory.readText path).mapError (.unreadable path)

/-- The source in a file. -/
def readSource (w : Workspace) (path : String) : Except Fault Source :=
  (w.readText path).map .ofFile

/-- The workspace with a text written to a file. -/
def writeText (w : Workspace) (path text : String) : Except Fault Workspace :=
  match w.directory.writeText path text with
  | .ok directory => .ok { w with directory }
  | .error cause => .error (.unwritable cause)

/-- The ledger saved in a file; a file that is missing counts as an empty ledger. -/
def loadLedger (w : Workspace) (path : String) : Except Fault Ledger :=
  if w.directory.has path then w.readText path >>= Ledger.ofSavedText else .ok .empty

/-- The workspace with a ledger saved in a file. -/
def saveLedger (w : Workspace) (path : String) (l : Ledger) : Except Fault Workspace :=
  w.writeText path l.savedText

/-- A source and a ledger, in the order in which a command reads them. -/
def readBoth (w : Workspace) (path ledgerPath : String) : Except Fault (Source × Ledger) := do
  let source ← w.readSource path
  let ledger ← w.loadLedger ledgerPath
  return (source, ledger)

end Workspace

/-- What a command leaves besides the workspace. -/
structure Outcome where
  exit : Nat := 0
  output : String := ""
  /-- What the command remarks on the way, in order. -/
  notes : List String := []
  /-- What is printed if the command ends with a complaint. -/
  complaint : Option String := none
  deriving DecidableEq, Repr

namespace Outcome

/-- A command that has printed a text, and a line feed after it. -/
def shown (text : String) : Outcome := { output := text ++ "\n" }

/-- The outcome after more has been printed. -/
def after (output : String) (o : Outcome) : Outcome := { o with output := output ++ o.output }

/-- The outcome after more has been remarked. -/
def noted (notes : List String) (o : Outcome) : Outcome := { o with notes := notes ++ o.notes }

end Outcome

end SectionLedger
