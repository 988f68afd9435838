import SectionLedger.Command.Arguments
import SectionLedger.Command.Workspace
import SectionLedger.Display.Decorated
import SectionLedger.Display.Report
import SectionLedger.Toml.Settings

/-!
# Compile commands

The commands that compile a source file, apply the outcome to its sections, and deal with the
settings of that.  The first fault ends a command; it is shown with the faults that lie behind it.
-/

namespace SectionLedger

/-- What a compilation is run with. -/
structure CompileRun where
  path : String
  config : Option String := none
  file : FileId := 1
  processor : Option String := none
  standard : Option String := none
  /-- Whether the source is shown with its sections. -/
  render : Bool := false
  /-- Where the report is written. -/
  report : Option String := none
  format : Format := .text
  deriving DecidableEq, Repr

/-- A compile command. -/
inductive CompileCommand where
  /-- Compiles a file and applies the outcome to its sections. -/
  | run (r : CompileRun)
  /-- Shows whether the compiler can be run. -/
  | check (config : Option String)
  /-- Shows the options there are, or those of a processor. -/
  | options (processor : Option String)
  /-- Writes the default settings to a file. -/
  | init (path : String)
  deriving DecidableEq, Repr

/-- A fault as a complaint: what happened, and what lies behind it, outermost first. -/
structure Complaint where
  message : String
  causes : List String := []
  /-- What has been remarked before. -/
  notes : List String := []
  deriving DecidableEq, Repr

namespace Complaint

/-- The complaint that a fault is. -/
def ofFault (fault : Fault) : Complaint := ⟨fault.message, fault.causes, []⟩

/-- A cause after a label; further lines of it are indented as far as the label reaches. -/
def labelled (label cause : String) : String :=
  let indent := List.replicate label.length ' '
  label ++ String.ofList (cause.toList.flatMap fun c => if c = '\n' then '\n' :: indent else [c])

/-- The causes, numbered if there is more than one. -/
def causeTexts (causes : List String) : List String :=
  match causes with
  | [cause] => [labelled "    " cause]
  | _ => causes.zipIdx.map fun (cause, n) => labelled s!"    {n}: " cause

/-- The text of a complaint. -/
def text (c : Complaint) : String :=
  "Error: " ++ c.message ++
    if c.causes.isEmpty then ""
    else "\n\nCaused by:\n" ++ "\n".intercalate (causeTexts c.causes)

/-- The outcome of a command that ends with a complaint. -/
def outcome (c : Complaint) : Outcome :=
  { exit := 1, complaint := some c.text, notes := c.notes }

end Complaint

namespace Workspace

/-- The settings in a file. -/
def readSettings (w : Workspace) (path : String) : Except Complaint Settings :=
  match w.directory.readText path with
  | .error cause => .error { message := cause.message }
  | .ok text => match Settings.ofToml? text with
    | some s => .ok s
    | none => .error { message := "TOML parse error" }

/-- The settings in a file if one is named, in the usual file if there is one, and otherwise the
default ones. -/
def loadSettings (w : Workspace) : Option String → Except Complaint Settings
  | some path => w.readSettings path
  | none =>
    if w.directory.has Settings.defaultPath then w.readSettings Settings.defaultPath else .ok {}

/-- The workspace with a text written to a file. -/
def writeFile (w : Workspace) (path text : String) : Except Complaint Workspace :=
  match w.directory.writeText path text with
  | .ok directory => .ok { w with directory }
  | .error cause => .error { message := cause.message }

end Workspace

namespace CompileCommand

/-- The settings of a run: those that are loaded, with a processor and a standard put in. -/
def settingsOf (w : Workspace) (r : CompileRun) : Except Complaint Settings := do
  let s ← w.loadSettings r.config
  return { s with options := { s.options with
    processor := r.processor.getD s.options.processor
    standard := r.standard.getD s.options.standard } }

/-- The ledger of a run; a file without sections is cut first. -/
def ledgerOf (w : Workspace) (path : String) (file : FileId) (source : Source) :
    Except Complaint Ledger := do
  let l ← (w.loadLedger path).mapError fun fault =>
    ⟨"Failed to load section store " ++ path, fault.message :: fault.causes, []⟩
  if (l.shelf file).isEmpty then
    match l.reparse file source with
    | (_, .error fault) => .error (.ofFault fault)
    | (l, .ok _) => .ok l
  else .ok l

/-- What is remarked when a file is about to be compiled. -/
def startNote (s : Settings) (file : FileId) : String :=
  s!"Compiling file {file} as " ++ s.tool.sourceName ++ " (" ++
    " ".intercalate s.options.arguments ++ ")"

/-- Compiles the source of a file: the settings, the source, the ledger afterwards, and the
report. -/
def compile (w : Workspace) (r : CompileRun) :
    Except Complaint (Settings × Source × Ledger × Report) := do
  let s ← settingsOf w r
  let t := Toolchain.probe w.programs s.tool.binary
  unless t.available do
    throw { message := "Compiler '" ++ s.tool.binary ++ "' is not available", notes := t.notes }
  let source ← (w.readSource r.path).mapError .ofFault
  let l ← ledgerOf w s.ledgerPath r.file source
  match l.compile (Program.backend w.programs s.tool.binary) s.request r.file source w.now with
  | (_, .error fault) => throw ⟨fault.message, fault.causes, [startNote s r.file]⟩
  | (l, .ok report) => return (s, source, l, report)

/-- What a run prints. -/
def printed (colour : Bool) (r : CompileRun) (source : Source) (l : Ledger) (report : Report) :
    String :=
  report.display r.format colour ++ "\n" ++
    if r.render then
      Decoration.listDisplay r.format colour (decorate source.lines (l.shelf r.file)) ++ "\n"
    else ""

/-- Compiles a file, saves the ledger, prints the report, and writes it to a file if one is
named. -/
def runCompilation (colour : Bool) (w : Workspace) (r : CompileRun) : Workspace × Outcome :=
  match compile w r with
  | .error complaint => (w, complaint.outcome)
  | .ok (s, source, l, report) =>
    let notes := [startNote s r.file]
    match w.saveLedger s.ledgerPath l with
    | .error fault => (w, (Complaint.ofFault fault).outcome.noted notes)
    | .ok w =>
      let output := printed colour r source l report
      let done : Outcome := { exit := if report.compiled then 0 else 1, output, notes }
      match r.report with
      | none => (w, done)
      | some path => match w.writeFile path report.savedText with
        | .error complaint => (w, (complaint.outcome.after output).noted notes)
        | .ok w => (w, { done with notes := notes ++ ["Report saved to " ++ path] })

/-- Whether the compiler can be run. -/
def checkText (colour : Bool) (t : Toolchain) : String :=
  match t.version with
  | some version => Text.Ink.boldGreen.write colour "OK" ++ " " ++ t.binary ++ " - " ++ version
  | none => Text.Ink.boldRed.write colour "MISSING" ++ " " ++ t.binary ++ " not found"

/-- The options there are. -/
def optionsText (colour : Bool) : String :=
  let heading (text : String) : String := Text.Ink.bold.write colour text ++ "\n"
  let processorRow (row : String × List String) : String :=
    "  -m" ++ String.ofList (Text.padEnd 10 row.1.toList) ++ " " ++
      Text.Ink.dim.write colour (" ".intercalate row.2) ++ "\n"
  heading "Standards:" ++ "  " ++ " ".intercalate Options.standards ++ "\n" ++
    heading "Optimizations:" ++
    String.join (Options.allOptimizations.map fun name => "  --" ++ name ++ "\n") ++
    heading "Processors:" ++ String.join (Options.processorTable.map processorRow)

/-- Shows the options there are, or those of a processor. -/
def showOptions (colour : Bool) : Option String → Outcome
  | none => { output := optionsText colour }
  | some processor =>
    if Options.processors.contains processor then
      { output := String.join ((Options.dependentOn processor).map fun name => name ++ "\n") }
    else Complaint.outcome { message := "Unknown processor: " ++ processor }

/-- Writes the default settings to a file that does not exist. -/
def writeDefaults (w : Workspace) (path : String) : Workspace × Outcome :=
  if w.directory.has path then
    (w, Complaint.outcome { message := "Config file already exists: " ++ path })
  else match w.writeFile path ({} : Settings).toToml with
    | .error complaint => (w, complaint.outcome)
    | .ok w => (w, { notes := ["Created default configuration at " ++ path] })

/-- Runs a command: the workspace after it, and what else it leaves. -/
def execute (colour : Bool) (w : Workspace) : CompileCommand → Workspace × Outcome
  | run r => runCompilation colour w r
  | check config =>
    match w.loadSettings config with
    | .error complaint => (w, complaint.outcome)
    | .ok s =>
      let t := Toolchain.probe w.programs s.tool.binary
      (w, { Outcome.shown (checkText colour t) with
        exit := if t.available then 0 else 1
        notes := t.notes })
  | options processor => (w, showOptions colour processor)
  | init path => writeDefaults w path

/-- The option that names a file of settings. -/
def configFlag : Flag := { name := "config", letter := some 'c' }

/-- The command that arguments ask for. -/
def ofArguments? : List String → Option CompileCommand
  | "run" :: rest => do
    let a ← Arguments.read
      [configFlag, { name := "file-id" }, { name := "processor" }, { name := "standard" },
       { name := "render", hasValue := false }, { name := "report" }, .format] rest
    let [path] := a.positional | none
    return .run {
      path := ← pathArgument? path
      config := ← a.path? "config"
      file := ← a.word "file-id" 1
      processor := a.value? "processor"
      standard := a.value? "standard"
      render := a.has "render"
      report := ← a.path? "report"
      format := ← a.format }
  | "check" :: rest => do
    let a ← Arguments.read [configFlag] rest
    let [] := a.positional | none
    return .check (← a.path? "config")
  | "options" :: rest => do
    let a ← Arguments.read [{ name := "processor" }] rest
    let [] := a.positional | none
    return .options (a.value? "processor")
  | "init" :: rest => do
    let a ← Arguments.read [{ name := "output", letter := some 'o' }] rest
    let [] := a.positional | none
    return .init (← a.path "output" Settings.defaultPath)
  | _ => none

end CompileCommand

end SectionLedger
