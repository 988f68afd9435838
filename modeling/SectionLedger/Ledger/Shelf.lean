import SectionLedger.Compiler.Diagnostic
import SectionLedger.Section
import SectionLedger.Source

/-!
# Shelves

A shelf holds the sections of one file, in the order in which they were stored.  New sections are
admitted one by one: the range has to lie in the source, then it must not clash with a stored
section, then the kind has to be registered.  A compilation is applied to a whole shelf at once.
-/

namespace SectionLedger

/-- The sections of one file, in the order in which they were stored. -/
abbrev Shelf := List Section

/-- A section to be stored: a span with a name and a description. -/
structure Draft where
  span : Span
  name : String := ""
  description : String := ""
  deriving DecidableEq, Repr

/-- What a shelf needs to know to accept sections: the file, its source and the accepted kinds. -/
structure Desk where
  kinds : Registry
  file : FileId
  source : Source

namespace Shelf

/-- The first stored section that an interval clashes with. -/
def clash? (shelf : Shelf) (i : Interval) : Option Section :=
  shelf.find? fun s => s.toInterval.clashesWith i

/-- The section made of a draft, or why it is refused. -/
def accept (desk : Desk) (shelf : Shelf) (draft : Draft) : Except Fault Section := do
  let i := draft.span.toInterval
  desk.source.checkRange i
  if let some s := shelf.clash? i then throw (.conflict i.first i.last s.first s.last)
  unless desk.kinds.contains draft.span.kind do throw (.unknownKind draft.span.kind)
  return .fresh desk.file draft.span (desk.source.excerpt i) draft.name draft.description

/-- Stores drafts in order up to the first one that is refused: the shelf then, and the number
stored or why one was refused. -/
def store (desk : Desk) (shelf : Shelf) : List Draft → Shelf × Except Fault Nat
  | [] => (shelf, .ok 0)
  | draft :: drafts =>
    match accept desk shelf draft with
    | .error fault => (shelf, .error fault)
    | .ok s =>
      let after := store desk (shelf ++ [s]) drafts
      (after.1, after.2.map (· + 1))

/-- The shelf without the sections of exactly this interval. -/
def delete (shelf : Shelf) (i : Interval) : Shelf := shelf.filter fun s => s.toInterval != i

/-- Whether a section of exactly this interval is stored. -/
def hasInterval (shelf : Shelf) (i : Interval) : Bool := shelf.any fun s => s.toInterval == i

/-- Attaches a message to every section that contains a line. -/
def annotate (status : Status) (line : Nat) (text : String) (shelf : Shelf) : Shelf :=
  shelf.map fun s => if s.containsLine line then s.annotate status text else s

/-- How many sections contain a line. -/
def reach (line : Nat) (shelf : Shelf) : Nat := shelf.countP fun s => s.containsLine line

/-- Gives a status to every section that has none. -/
def settle (status : Status) (shelf : Shelf) : Shelf := shelf.map fun s => s.settle status

/-- How many sections have no status. -/
def pending (shelf : Shelf) : Nat := shelf.countP fun s => s.status.isNone

/-- Takes every verdict back. -/
def reset (shelf : Shelf) : Shelf := shelf.map Section.reset

end Shelf

/-- What applying a compilation did to a shelf. -/
structure Summary where
  status : Status
  residual : Status
  /-- How many messages are attributed to a line. -/
  applied : Nat
  /-- How many times a message was attached to a section. -/
  updates : Nat
  /-- How many sections no message concerns. -/
  settled : Nat
  deriving DecidableEq, Repr

namespace Shelf

/-- Attaches messages in order: the shelf then, and how many times one was attached. -/
def annotateAll (status : Status) (shelf : Shelf) : List Diagnostic → Shelf × Nat
  | [] => (shelf, 0)
  | d :: ds =>
    let after := annotateAll status (shelf.annotate status d.line d.text) ds
    (after.1, shelf.reach d.line + after.2)

/-- Replaces the verdicts of a shelf by the outcome of one compilation: the attributed messages go
to the sections that contain their lines, the other sections get the residual status. -/
def apply (status : Status) (diagnostics : List Diagnostic) (shelf : Shelf) : Shelf × Summary :=
  let attributed := diagnostics.filter Diagnostic.isAttributed
  let after := shelf.reset.annotateAll status attributed
  (after.1.settle status.residual,
   { status, residual := status.residual, applied := attributed.length, updates := after.2,
     settled := after.1.pending })

end Shelf

end SectionLedger
