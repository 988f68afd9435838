import SectionLedger.Command.Compile
import SectionLedger.Command.Ledger

/-!
# The command line

The arguments name a command on a ledger, or a compile command after the word `compile`.  Commands
are run on a copy of the files that the arguments name, and the files that they changed are written
afterwards.  Directories are not listed and no compiler is run from here.
-/

namespace SectionLedger.CommandLine

/-- A command of either sort. -/
inductive Command where
  | ledger (c : LedgerCommand)
  | compile (c : CompileCommand)

/-- The command that arguments ask for. -/
def commandOf? : List String → Option Command
  | "compile" :: rest => (CompileCommand.ofArguments? rest).map .compile
  | rest => (LedgerCommand.ofArguments? rest).map .ledger

/-- Runs a command. -/
def execute (colour : Bool) (w : Workspace) : Command → Workspace × Outcome
  | .ledger (.scan path format) =>
    match w.directory.find path with
    | .ok .folder => (w, { exit := 2, complaint := some "Error: Directories cannot be listed" })
    | _ => LedgerCommand.execute colour w (.scan path format)
  | .ledger c => c.execute colour w
  | .compile c => c.execute colour w

/-- The texts in arguments that may be paths. -/
def candidates (arguments : List String) : List String :=
  ["sections.json", Settings.defaultPath] ++
    arguments.flatMap fun a => [a, String.ofList ((a.toList.dropWhile (· ≠ '=')).drop 1)]

/-- The places that names lead through from a place. -/
def placesFrom (place : Place) : List String → List Place
  | [] => []
  | "." :: names => placesFrom place names
  | ".." :: names => placesFrom place.dropLast names
  | name :: names => (place ++ [name]) :: placesFrom (place ++ [name]) names

/-- The places that a path leads through, as far as a file can be there. -/
def placesOf (home : Place) (path : String) : List Place :=
  (placesFrom (if Path.isAbsolute path then [] else home) (Path.names path)).filter fun place =>
    place.all (·.utf8ByteSize ≤ Path.nameLimit) && (Path.ofPlace place).utf8ByteSize ≤ Path.limit

/-- What stands at a place on the disk. -/
def lookAt (place : Place) : IO (Option Entry) := do
  try
    return some (.file (← IO.FS.readBinFile (Path.ofPlace place)))
  catch e =>
    match e with
    | .noFileOrDirectory .. => return none
    | .inappropriateType _ code _ => return if code = 21 then some .folder else none
    | e => throw e

/-- A copy of the files that paths lead to. -/
def copyOf (paths : List String) : IO Directory := do
  let home := Path.names (← IO.currentDir).toString
  let mut d := Directory.empty home
  for place in paths.flatMap (placesOf home) do
    if let some entry ← lookAt place then
      d := d.set place entry
  return d

/-- Whether a file with the given bytes stands at a place. -/
def holds (d : Directory) (place : Place) (content : ByteArray) : Bool :=
  match d.get? place with
  | some (.file old) => old.data == content.data
  | _ => false

/-- Writes the files that differ between two copies. -/
def writeChanges (before after : Directory) : IO Unit := do
  for (place, entry) in after.rows do
    if let .file content := entry then
      unless holds before place content do
        IO.FS.writeBinFile (Path.ofPlace place) content

/-- Runs the command that arguments ask for. -/
def runArguments (arguments : List String) : IO UInt32 := do
  let some command := commandOf? arguments
    | IO.eprintln "error: no such command, or not with these arguments"
      return 2
  let stdout ← IO.getStdout
  let before ← copyOf (candidates arguments)
  let (after, outcome) := execute (← stdout.isTty) ⟨before, [], ⟨0, 0⟩⟩ command
  stdout.putStr outcome.output
  writeChanges before after.directory
  outcome.notes.forM IO.eprintln
  if let some complaint := outcome.complaint then IO.eprintln complaint
  return UInt32.ofNat outcome.exit

end SectionLedger.CommandLine

/-- Runs the command that arguments ask for. -/
def main (arguments : List String) : IO UInt32 := SectionLedger.CommandLine.runArguments arguments
