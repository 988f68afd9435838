import SectionLedger.Command.Arguments
import SectionLedger.Command.Workspace
import SectionLedger.Display.Decorated
import SectionLedger.Display.Survey

/-!
# Commands on a ledger

The commands that show, change and annotate the sections of source files.  A command reads what it
needs, acts, saves the ledger and prints; the first fault ends it.  A ledger that an operation has
changed before it failed is saved all the same.
-/

namespace SectionLedger

/-- Where the sections of a file are kept: the path of the ledger and the number of the file. -/
structure Shelfmark where
  path : String := "sections.json"
  file : FileId := 1
  deriving DecidableEq, Repr

/-- A command on a ledger. -/
inductive LedgerCommand where
  /-- Shows how a source is cut. -/
  | sections (path : String) (depth : Nat) (format : Format)
  /-- Surveys the C sources below a directory. -/
  | scan (path : String) (format : Format)
  /-- Replaces the sections of a file by the spans of its source. -/
  | reparse (path : String) (mark : Shelfmark) (format : Format)
  /-- Shows a source with its sections. -/
  | render (path : String) (mark : Shelfmark) (format : Format)
  /-- Adds one section. -/
  | addSection (path : String) (draft : Draft) (mark : Shelfmark)
  /-- Deletes a section with its lines, or by force just the lines. -/
  | deleteSection (path : String) (interval : Interval) (force : Bool) (mark : Shelfmark)
  /-- Shows compiler output. -/
  | diagnostics (name : String) (stderr listing : Option String) (format : Format)
  /-- Applies compiler output to the sections of a file. -/
  | annotate (name stderr : String) (listing : Option String) (mark : Shelfmark) (format : Format)
  /-- Shows the kinds that a ledger accepts, after registering one. -/
  | kinds (add : Option String) (path : String)
  deriving DecidableEq, Repr

namespace LedgerCommand

/-- A command that a fault ended. -/
def failed (fault : Fault) : Outcome :=
  { exit := 2, complaint := some ("Error: " ++ fault.message) }

/-- Saves a ledger, and goes on if that succeeds. -/
def saving (w : Workspace) (path : String) (l : Ledger) (next : Workspace → Workspace × Outcome) :
    Workspace × Outcome :=
  match w.saveLedger path l with
  | .error fault => (w, failed fault)
  | .ok w => next w

/-- Replaces the sections of a file by the spans of a source, saves the ledger, and goes on with the
number of sections. -/
def reparsing (w : Workspace) (mark : Shelfmark) (l : Ledger) (source : Source)
    (next : Ledger → Nat → Outcome) : Workspace × Outcome :=
  let after := l.reparse mark.file source
  saving w mark.path after.1 fun w =>
    match after.2 with
    | .error fault => (w, failed fault)
    | .ok n => (w, next after.1 n)

/-- Writes a source that lost lines, and cuts it again. -/
def finishDeletion (w : Workspace) (path : String) (i : Interval) (mark : Shelfmark) (l : Ledger)
    (source : Source) : Workspace × Outcome :=
  match w.writeText path source.fileText with
  | .error fault => (w, failed fault)
  | .ok w => reparsing w mark l source fun _ n =>
    .shown s!"Deleted lines {i.first}-{i.last}; {n} sections after reparse"

/-- Deletes a section with its lines.  Without such a section the lines are deleted by force
only. -/
def runDeletion (w : Workspace) (path : String) (i : Interval) (force : Bool) (mark : Shelfmark) :
    Workspace × Outcome :=
  match w.readBoth path mark.path with
  | .error fault => (w, failed fault)
  | .ok (source, l) =>
    match l.remove mark.file source i with
    | (_, _, .error fault) => (w, failed fault)
    | (l, source, .ok true) => finishDeletion w path i mark l source
    | (l, source, .ok false) =>
      if !force then (w, { exit := 1 })
      else match source.deleteRange i with
        | .error fault => (w, failed fault)
        | .ok source => finishDeletion w path i mark l source

/-- Shows the messages in one file and the listing in another, as far as they are named.  Messages
that do not mention the file are remarked on. -/
def runDiagnostics (colour : Bool) (w : Workspace) (name : String) (stderr listing : Option String)
    (format : Format) : Outcome :=
  let showFile (path : Option String) (display : String → Outcome) (next : Outcome) : Outcome :=
    match path with
    | none => next
    | some path => match w.readText path with
      | .error fault => failed fault
      | .ok text => (next.after (display text).output).noted (display text).notes
  let messages (text : String) : Outcome :=
    (Outcome.shown (Diagnostic.listDisplay format colour (Diagnostic.ofOutput name text))).noted <|
      match checkMentions name text with
      | .error fault => [fault.message]
      | .ok _ => []
  let assembly (text : String) : Outcome :=
    .shown (ListingLine.listDisplay format colour (ListingLine.ofListing name text))
  showFile stderr messages (showFile listing assembly {})

/-- Applies the messages in a file to the sections of a file.  The compilation counts as
successful if there is a listing. -/
def runAnnotation (colour : Bool) (w : Workspace) (name stderr : String) (listing : Option String)
    (mark : Shelfmark) (format : Format) : Workspace × Outcome :=
  let read : Except Fault (List Diagnostic × Ledger) := do
    let text ← w.readText stderr
    let ledger ← w.loadLedger mark.path
    return (Diagnostic.ofOutput name text, ledger)
  match read with
  | .error fault => (w, failed fault)
  | .ok (ds, l) =>
    let after := l.apply mark.file (.ofOutcome (listing.any w.directory.has) ds) ds
    saving w mark.path after.1 fun w =>
      (w, .shown (format.render (Section.listText colour (after.1.shelf mark.file)) after.2.toJson))

/-- Shows the kinds that a ledger accepts, after registering one. -/
def runKinds (w : Workspace) (add : Option String) (path : String) : Workspace × Outcome :=
  match w.loadLedger path with
  | .error fault => (w, failed fault)
  | .ok l =>
    let listed (l : Ledger) : Outcome :=
      { output := String.join (l.kinds.names.map fun name => name ++ "\n") }
    match add with
    | none => (w, listed l)
    | some name => saving w path (l.register name) fun w => (w, listed (l.register name))

/-- Runs a command: the workspace after it, and what else it leaves. -/
def execute (colour : Bool) (w : Workspace) : LedgerCommand → Workspace × Outcome
  | sections path depth format =>
    match w.readSource path >>= fun source => nestedSpans depth 0 source.lines with
    | .error fault => (w, failed fault)
    | .ok spans => (w, .shown (Span.listDisplay format colour spans))
  | scan path format =>
    let survey := Survey.ofDirectory w.directory path
    (w, { Outcome.shown (survey.listDisplay format colour) with
      exit := if survey.passed then 0 else 1
      notes := survey.notes })
  | reparse path mark format =>
    match w.readBoth path mark.path with
    | .error fault => (w, failed fault)
    | .ok (source, l) => reparsing w mark l source fun l _ =>
      .shown (Section.listDisplay format colour (l.shelf mark.file))
  | render path mark format =>
    match w.readBoth path mark.path with
    | .error fault => (w, failed fault)
    | .ok (source, l) =>
      let decorations := decorate source.lines (l.shelf mark.file)
      (w, .shown (Decoration.listDisplay format colour decorations))
  | addSection path draft mark =>
    match w.readBoth path mark.path with
    | .error fault => (w, failed fault)
    | .ok (source, l) =>
      match l.create mark.file source draft with
      | (_, .error fault) => (w, failed fault)
      | (l, .ok s) => saving w mark.path l fun w =>
        (w, .shown ("Added " ++ s.kind ++ s!" section {s.first}-{s.last}"))
  | deleteSection path i force mark => runDeletion w path i force mark
  | diagnostics name stderr listing format =>
    (w, runDiagnostics colour w name stderr listing format)
  | annotate name stderr listing mark format =>
    runAnnotation colour w name stderr listing mark format
  | kinds add path => runKinds w add path

/-- The options that say where sections are kept. -/
def markFlags : List Flag := [{ name := "store" }, { name := "file-id" }]

/-- Where the arguments say that sections are kept. -/
def markOf (a : Arguments) : Option Shelfmark := do
  return { path := ← a.path "store" "sections.json", file := ← a.word "file-id" 1 }

/-- The command that arguments ask for. -/
def ofArguments? : List String → Option LedgerCommand
  | "sections" :: rest => do
    let a ← Arguments.read [{ name := "depth" }, .format] rest
    let [path] := a.positional | none
    return .sections (← pathArgument? path) (← a.word "depth" 1) (← a.format)
  | "scan" :: rest => do
    let a ← Arguments.read [.format] rest
    match a.positional with
    | [] => return .scan "." (← a.format)
    | [path] => return .scan (← pathArgument? path) (← a.format)
    | _ => none
  | "reparse" :: rest => do
    let a ← Arguments.read (.format :: markFlags) rest
    let [path] := a.positional | none
    return .reparse (← pathArgument? path) (← markOf a) (← a.format)
  | "render" :: rest => do
    let a ← Arguments.read (.format :: markFlags) rest
    let [path] := a.positional | none
    return .render (← pathArgument? path) (← markOf a) (← a.format)
  | "add-section" :: rest => do
    let a ← Arguments.read ({ name := "name" } :: { name := "description" } :: markFlags) rest
    let [path, first, last, kind] := a.positional | none
    let draft : Draft := {
      span := { kind, first := ← wordArgument? first, last := ← wordArgument? last }
      name := a.text "name" ""
      description := a.text "description" "" }
    return .addSection (← pathArgument? path) draft (← markOf a)
  | "delete-section" :: rest => do
    let a ← Arguments.read ({ name := "force", hasValue := false } :: markFlags) rest
    let [path, first, last] := a.positional | none
    let i : Interval := { first := ← wordArgument? first, last := ← wordArgument? last }
    return .deleteSection (← pathArgument? path) i (a.has "force") (← markOf a)
  | "diagnostics" :: rest => do
    let a ← Arguments.read
      [{ name := "name" }, { name := "stderr" }, { name := "listing" }, .format] rest
    let [] := a.positional | none
    return .diagnostics (a.text "name" "source.c") (← a.path? "stderr") (← a.path? "listing")
      (← a.format)
  | "annotate" :: rest => do
    let a ← Arguments.read
      ({ name := "name" } :: { name := "stderr" } :: { name := "listing" } :: .format :: markFlags)
      rest
    let [] := a.positional | none
    let stderr ← a.value? "stderr"
    return .annotate (a.text "name" "source.c") (← pathArgument? stderr) (← a.path? "listing")
      (← markOf a) (← a.format)
  | "kinds" :: rest => do
    let a ← Arguments.read [{ name := "add" }, { name := "store" }] rest
    let [] := a.positional | none
    return .kinds (a.value? "add") (← a.path "store" "sections.json")
  | _ => none

end LedgerCommand

end SectionLedger
