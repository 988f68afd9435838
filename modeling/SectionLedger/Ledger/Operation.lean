import SectionLedger.Decoration
import SectionLedger.Ledger.Basic

/-!
# Operations on a ledger

The operations on a ledger as data, so that runs of operations can be spoken of.  An operation on a
file is given the file's source and may change it; every operation has a reply, which is a fault if
the operation was refused.
-/

namespace SectionLedger

/-- An operation on one file. -/
inductive FileOperation where
  | insert (spans : List Span)
  | insertAtomic (spans : List Span)
  | create (draft : Draft)
  | sections
  | decorate
  | clear
  | delete (interval : Interval)
  /-- Deletes a section together with its lines. -/
  | remove (interval : Interval)
  | reparse
  | settle (status : Status)
  | reset
  | append (status : Status) (line : Nat) (text : String)
  | apply (status : Status) (diagnostics : List Diagnostic)
  deriving Repr

/-- What an operation that was not refused replies. -/
inductive Reply where
  | done
  | count (n : Nat)
  | found (b : Bool)
  | section (s : Section)
  | sections (shelf : Shelf)
  | decorations (ds : List Decoration)
  | summary (s : Summary)
  deriving DecidableEq, Repr

namespace FileOperation

/-- Runs an operation on a file: the ledger and the source after it, and its reply. -/
def run (file : FileId) (l : Ledger) (source : Source) :
    FileOperation → Ledger × Source × Except Fault Reply
  | insert spans =>
    let r := l.insert file source (spans.map fun span => { span })
    (r.1, source, r.2.map .count)
  | insertAtomic spans =>
    let r := l.insertAtomic file source (spans.map fun span => { span })
    (r.1, source, r.2.map .count)
  | create draft =>
    let r := l.create file source draft
    (r.1, source, r.2.map .section)
  | sections => (l, source, .ok (.sections (l.shelf file)))
  | decorate => (l, source, .ok (.decorations (SectionLedger.decorate source.lines (l.shelf file))))
  | clear => (l.clear file, source, .ok .done)
  | delete i =>
    let r := l.delete file i
    (r.1, source, .ok (.found r.2))
  | remove i =>
    let r := l.remove file source i
    (r.1, r.2.1, r.2.2.map .found)
  | reparse =>
    let r := l.reparse file source
    (r.1, source, r.2.map .count)
  | settle status =>
    let r := l.settle file status
    (r.1, source, .ok (.count r.2))
  | reset => (l.reset file, source, .ok .done)
  | append status line text =>
    let r := l.append file status line text
    (r.1, source, .ok (.count r.2))
  | apply status diagnostics =>
    let r := l.apply file status diagnostics
    (r.1, source, .ok (.summary r.2))

end FileOperation

/-- An operation on the ledger: on one of its files, or on its registry. -/
inductive Operation where
  | on (file : FileId) (op : FileOperation)
  | register (name : String)
  deriving Repr

namespace Operation

/-- The ledger after an operation that is given the source of each file, and its reply.  The sources
stay as they are. -/
def run (sources : FileId → Source) (l : Ledger) : Operation → Ledger × Except Fault Reply
  | on file op =>
    let r := op.run file l (sources file)
    (r.1, r.2.2)
  | register name => (l.register name, .ok .done)

/-- The ledger after a run of operations. -/
def runAll (sources : FileId → Source) (l : Ledger) (ops : List Operation) : Ledger :=
  ops.foldl (fun l op => (op.run sources l).1) l

end Operation

end SectionLedger
