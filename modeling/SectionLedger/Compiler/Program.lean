import SectionLedger.Compiler.Backend
import SectionLedger.Directory.Basic
import SectionLedger.Text.Blank

/-!
# Programs

A program is a function of its arguments and the directory it runs in.  A compiler is run in a
directory that the source has been written into, and what it leaves there is looked at afterwards.
The directory is a new one each time; a file may have a name that leads out of it, so what stands
around it matters as well.
-/

namespace SectionLedger

/-- What running a program did. -/
structure Run where
  exit : Nat
  stdout : ByteArray
  stderr : ByteArray
  /-- The directory afterwards. -/
  directory : Directory

/-- A program that is given its arguments and the directory it runs in. -/
abbrev Program := List String → Directory → Run

/-- The programs that can be run, by name. -/
abbrev Programs := List (String × Program)

/-- The place of the directory that programs are run in. -/
def scratch : Place := ["tmp", ".tmpXXXXXX"]

/-- Whether a compiler can be run, and the version it claims. -/
structure Toolchain where
  binary : String
  version : Option String
  deriving DecidableEq, Repr

namespace Toolchain

/-- Whether the compiler can be run. -/
def available (t : Toolchain) : Bool := t.version.isSome

/-- What is remarked on a compiler that cannot be run. -/
def notes (t : Toolchain) : List String :=
  let hint :=
    if (Path.fileName? t.binary).getD t.binary = "sdcc" then
      "Install SDCC: https://sdcc.sourceforge.net/ (or your package manager's \x60sdcc\x60)"
    else "Check the [compiler] binary setting in the configuration file"
  if t.available then []
  else ["Compiler '" ++ t.binary ++ "' not found - compilation is unavailable. " ++ hint]

/-- The version in what a compiler prints about itself, on one stream or the other: the first
line. -/
def versionOf (run : Run) : String :=
  let output := Text.readLenient (if run.stdout.isEmpty then run.stderr else run.stdout)
  String.ofList (Text.trim (output.toList.takeWhile (· ≠ '\n')))

/-- Asks a compiler for its version. -/
def probe (programs : Programs) (binary : String) : Toolchain :=
  match programs.lookup binary with
  | none => ⟨binary, none⟩
  | some program =>
    let run := program ["--version"] (.empty scratch)
    ⟨binary, if run.exit = 0 then some (versionOf run) else none⟩

end Toolchain

namespace Program

/-- The listing that is at a path in the directory that a compiler leaves, if there is one. -/
def listingIn (d : Directory) (path name : String) : Except CompileFault (Option String) :=
  if d.has path then
    match d.readText path with
    | .ok text => .ok (some text)
    | .error cause => .error (.unreadable name cause)
  else .ok none

/-- Runs a compiler on the source in a directory. -/
def compileIn (program : Program) (request : Request) (d : Directory) :
    Except CompileFault Artifacts := do
  let run := program ("-S" :: request.options.arguments ++ [request.sourceName]) d
  let listing ← listingIn run.directory (d.pathOf request.listingName) request.listingName
  return ⟨Text.readLenient run.stdout, Text.readLenient run.stderr, listing⟩

/-- The backend that writes the source into a directory and runs a compiler there. -/
def backendIn (d : Directory) (programs : Programs) (binary : String) : Backend :=
  Backend.checked fun request source =>
  match d.writeText (d.pathOf request.sourceName) source with
  | .error cause => .error (.unwritable request.sourceName cause)
  | .ok d =>
    match programs.lookup binary with
    | none => .error (.notRun binary)
    | some program => compileIn program request d

/-- The backend that runs a compiler in the scratch directory, with nothing around it but what every
system has. -/
def backend (programs : Programs) (binary : String) : Backend :=
  backendIn (.empty scratch) programs binary

end Program

end SectionLedger
