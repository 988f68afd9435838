import SectionLedger.Ledger.ShelfTable
import SectionLedger.Segmentation

/-!
# The ledger

A ledger keeps a shelf of sections for each file, and the registry of the kinds it accepts.  Two
ledgers with the same registry and the same shelves are equal (`Ledger.ext_shelf`).
-/

namespace SectionLedger

/-- Sections kept for files, and the kinds that they may have. -/
structure Ledger where
  kinds : Registry
  shelves : ShelfTable

namespace Ledger

/-- The ledger without sections that accepts the kinds of a registry. -/
def ofKinds (kinds : Registry) : Ledger := ⟨kinds, .empty⟩

/-- The ledger without sections that accepts the built-in kinds. -/
def empty : Ledger := ofKinds .builtin

/-- The sections of a file, in the order in which they were stored. -/
def shelf (l : Ledger) (file : FileId) : Shelf := l.shelves.get file

/-- The files with a section, in ascending order. -/
def files (l : Ledger) : List FileId := l.shelves.files

/-- The ledger with the shelf of a file replaced. -/
def withShelf (l : Ledger) (file : FileId) (shelf : Shelf) : Ledger :=
  { l with shelves := l.shelves.set file shelf }

/-- The ledger that accepts one more kind. -/
def register (l : Ledger) (name : String) : Ledger := { l with kinds := l.kinds.register name }

@[simp] theorem shelf_withShelf_self (l : Ledger) (file : FileId) (shelf : Shelf) :
    (l.withShelf file shelf).shelf file = shelf := ShelfTable.get_set_self ..

@[simp] theorem shelf_withShelf_other (l : Ledger) {file other : FileId} (h : file ≠ other)
    (shelf : Shelf) : (l.withShelf file shelf).shelf other = l.shelf other :=
  ShelfTable.get_set_other _ h _

@[simp] theorem kinds_withShelf (l : Ledger) (file : FileId) (shelf : Shelf) :
    (l.withShelf file shelf).kinds = l.kinds := rfl

/-- Two ledgers with the same registry and the same shelves are equal. -/
theorem ext_shelf {a b : Ledger} (hk : a.kinds = b.kinds)
    (h : ∀ file, a.shelf file = b.shelf file) : a = b := by
  obtain ⟨ka, sa⟩ := a
  obtain ⟨kb, sb⟩ := b
  obtain rfl : sa = sb := ShelfTable.ext_get h
  cases hk
  rfl

/-- What admitting sections of a file takes. -/
def desk (l : Ledger) (file : FileId) (source : Source) : Desk := ⟨l.kinds, file, source⟩

/-- Stores drafts in order up to the first one that is refused. -/
def insert (l : Ledger) (file : FileId) (source : Source) (drafts : List Draft) :
    Ledger × Except Fault Nat :=
  let after := (l.shelf file).store (l.desk file source) drafts
  (l.withShelf file after.1, after.2)

/-- Stores all drafts, or none if one is refused. -/
def insertAtomic (l : Ledger) (file : FileId) (source : Source) (drafts : List Draft) :
    Ledger × Except Fault Nat :=
  match (l.shelf file).store (l.desk file source) drafts with
  | (shelf, .ok n) => (l.withShelf file shelf, .ok n)
  | (_, .error fault) => (l, .error fault)

/-- Stores one draft. -/
def create (l : Ledger) (file : FileId) (source : Source) (draft : Draft) :
    Ledger × Except Fault Section :=
  match (l.shelf file).accept (l.desk file source) draft with
  | .ok s => (l.withShelf file (l.shelf file ++ [s]), .ok s)
  | .error fault => (l, .error fault)

/-- Deletes all sections of a file. -/
def clear (l : Ledger) (file : FileId) : Ledger := l.withShelf file []

/-- Deletes the sections of exactly this interval; whether there was one. -/
def delete (l : Ledger) (file : FileId) (i : Interval) : Ledger × Bool :=
  (l.withShelf file ((l.shelf file).delete i), (l.shelf file).hasInterval i)

/-- Deletes the section of exactly this interval, and its lines from the source; whether there was
one.  The other sections keep their line numbers. -/
def remove (l : Ledger) (file : FileId) (source : Source) (i : Interval) :
    Ledger × Source × Except Fault Bool :=
  match source.checkRange i with
  | .error fault => (l, source, .error fault)
  | .ok () =>
    if (l.shelf file).hasInterval i then ((l.delete file i).1, source.without i, .ok true)
    else (l, source, .ok false)

/-- Replaces the sections of a file by the spans of its source; a source that cannot be cut leaves
the ledger as it is. -/
def reparse (l : Ledger) (file : FileId) (source : Source) : Ledger × Except Fault Nat :=
  match fileSpans source.lines with
  | .error fault => (l, .error fault)
  | .ok spans => (l.clear file).insert file source (spans.map fun span => { span })

/-- Gives a status to every section of a file that has none; how many there were. -/
def settle (l : Ledger) (file : FileId) (status : Status) : Ledger × Nat :=
  (l.withShelf file ((l.shelf file).settle status), (l.shelf file).pending)

/-- Takes back every verdict on a file. -/
def reset (l : Ledger) (file : FileId) : Ledger := l.withShelf file (l.shelf file).reset

/-- Attaches a message to every section of a file that contains a line; how many there are. -/
def append (l : Ledger) (file : FileId) (status : Status) (line : Nat) (text : String) :
    Ledger × Nat :=
  (l.withShelf file ((l.shelf file).annotate status line text), (l.shelf file).reach line)

/-- Replaces the verdicts on a file by the outcome of one compilation. -/
def apply (l : Ledger) (file : FileId) (status : Status) (diagnostics : List Diagnostic) :
    Ledger × Summary :=
  let after := (l.shelf file).apply status diagnostics
  (l.withShelf file after.1, after.2)

end Ledger

end SectionLedger
