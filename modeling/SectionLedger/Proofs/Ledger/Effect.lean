import Mathlib
import SectionLedger.Ledger.Operation
import SectionLedger.Proofs.Ledger.Verdict

/-!
# What an operation does to a shelf

Every operation on a file works in the same three steps, most of which are idle for most operations:
some sections of the file go (`FileOperation.keeps` says which stay), the others replay the marks of
the operation (`FileOperation.marks`), and drafts are stored behind them (`FileOperation.drafts`)
up to the first that is refused.  `FileOperation.run_fst` says so for all operations at once,
refused ones included; the registry and the other files are left alone.
-/

namespace SectionLedger

namespace Ledger

/-- A ledger stays as it is when a shelf is replaced by itself. -/
lemma withShelf_shelf (l : Ledger) (file : FileId) : l.withShelf file (l.shelf file) = l := by
  refine ext_shelf rfl fun other => ?_
  by_cases h : file = other
  · rw [h, shelf_withShelf_self]
  · rw [shelf_withShelf_other l h]

/-- The last shelf put in for a file counts. -/
lemma withShelf_withShelf (l : Ledger) (file : FileId) (shelf shelf' : Shelf) :
    (l.withShelf file shelf).withShelf file shelf' = l.withShelf file shelf' := by
  refine ext_shelf rfl fun other => ?_
  by_cases h : file = other
  · rw [h, shelf_withShelf_self, shelf_withShelf_self]
  · rw [shelf_withShelf_other _ h, shelf_withShelf_other _ h, shelf_withShelf_other _ h]

section Shelves

variable (l : Ledger) (file : FileId) (source : Source)

/-- Storing one draft is storing a batch of one. -/
lemma shelf_create (draft : Draft) :
    (l.create file source draft).1.shelf file =
      ((l.shelf file).store (l.desk file source) [draft]).1 := by
  rw [create, Shelf.store]
  cases (l.shelf file).accept (l.desk file source) draft with
  | ok s => simp [Shelf.store]
  | error fault => rfl

/-- Where all drafts or none are stored, the shelf is that of the batch if it is accepted. -/
lemma shelf_insertAtomic (drafts : List Draft) :
    (l.insertAtomic file source drafts).1.shelf file =
      match ((l.shelf file).store (l.desk file source) drafts).2 with
      | .ok _ => ((l.shelf file).store (l.desk file source) drafts).1
      | .error _ => l.shelf file := by
  rw [insertAtomic]
  split
  · next shelf n heq =>
    rw [heq]
    exact shelf_withShelf_self ..
  · next shelf fault heq => rw [heq]

/-- With the lines of an interval, the sections of just this interval go. -/
lemma shelf_remove (i : Interval) :
    (l.remove file source i).1.shelf file =
      if source.Covers i then (l.shelf file).delete i else l.shelf file := by
  rw [remove, Source.checkRange]
  by_cases hcovers : source.Covers i
  · rw [if_pos hcovers, if_pos hcovers]
    cases hthere : (l.shelf file).hasInterval i with
    | true => exact shelf_withShelf_self ..
    | false =>
      have hother : ∀ s ∈ l.shelf file, s.toInterval ≠ i := by
        simpa [Shelf.hasInterval] using hthere
      exact (List.filter_eq_self.mpr fun s hs => by simpa using hother s hs).symm
  · rw [if_neg hcovers, if_neg hcovers]

end Shelves

end Ledger

namespace FileOperation

/-- The marks that an operation leaves on the sections of its file. -/
def marks : FileOperation → List Mark
  | settle status => [.settle status]
  | reset => [.reset]
  | append status line text => [.append status line text]
  | apply status diagnostics => Mark.ofCompilation status diagnostics
  | _ => []

/-- Whether an operation that is given a source leaves a section of its file on the shelf. -/
def keeps (source : Source) : FileOperation → Section → Bool
  | clear, _ => false
  | delete i, s => s.toInterval != i
  | remove i, s => !decide (source.Covers i) || s.toInterval != i
  | reparse, _ =>
    match fileSpans source.lines with
    | .ok _ => false
    | .error _ => true
  | _, _ => true

/-- The drafts that an operation stores behind the sections of its file: none where all of them or
none are stored and one would be refused. -/
def drafts (desk : Desk) (shelf : Shelf) : FileOperation → List Draft
  | insert spans => spans.map fun span => { span }
  | insertAtomic spans =>
    match (shelf.store desk (spans.map fun span => { span })).2 with
    | .ok _ => spans.map fun span => { span }
    | .error _ => []
  | create draft => [draft]
  | reparse =>
    match fileSpans desk.source.lines with
    | .ok spans => spans.map fun span => { span }
    | .error _ => []
  | _ => []

/-- The sections that an operation leaves on the shelf of its file, with its marks. -/
def kept (source : Source) (shelf : Shelf) (op : FileOperation) : Shelf :=
  (shelf.filter (op.keeps source)).map (·.replay op.marks)

section Kept

variable {source : Source} {shelf : Shelf} {op : FileOperation}

/-- An operation that keeps every section leaves its marks on all of them. -/
lemma kept_of_keeps (h : ∀ s, op.keeps source s = true) :
    op.kept source shelf = shelf.map (·.replay op.marks) := by
  rw [kept, List.filter_eq_self.mpr fun s _ => h s]

/-- An operation without marks leaves the sections that it keeps as they are. -/
lemma kept_of_marks (h : op.marks = []) :
    op.kept source shelf = shelf.filter (op.keeps source) := by
  rw [kept, h]
  exact List.map_id _

/-- An operation that keeps every section and has no marks leaves the shelf as it is. -/
lemma kept_eq_self (h : ∀ s, op.keeps source s = true) (hmarks : op.marks = []) :
    op.kept source shelf = shelf := by
  rw [kept_of_marks hmarks, List.filter_eq_self.mpr fun s _ => h s]

/-- The removal of lines leaves the sections of other intervals, if the lines are there. -/
lemma kept_remove (source : Source) (shelf : Shelf) (i : Interval) :
    (remove i).kept source shelf = if source.Covers i then shelf.delete i else shelf := by
  rw [kept_of_marks rfl]
  split_ifs with hcovers
  · exact List.filter_congr fun s _ => by simp [keeps, hcovers]
  · exact List.filter_eq_self.mpr fun s _ => by simp [keeps, hcovers]

/-- A reparse leaves no section of a source that can be cut. -/
lemma kept_reparse_of_ok {spans : List Span} (hcut : fileSpans source.lines = .ok spans)
    (shelf : Shelf) : reparse.kept source shelf = [] := by
  rw [kept_of_marks rfl]
  exact List.filter_eq_nil_iff.mpr fun s _ => by simp [keeps, hcut]

/-- A reparse leaves every section of a source that cannot be cut. -/
lemma kept_reparse_of_error {fault : Fault} (hcut : fileSpans source.lines = .error fault)
    (shelf : Shelf) : reparse.kept source shelf = shelf := by
  rw [kept_of_marks rfl]
  exact List.filter_eq_self.mpr fun s _ => by simp [keeps, hcut]

end Kept

/-- The three steps of an operation, on the shelf of its file. -/
lemma shelf_run_self (file : FileId) (l : Ledger) (source : Source) (op : FileOperation) :
    (op.run file l source).1.shelf file =
      ((op.kept source (l.shelf file)).store (l.desk file source)
        (op.drafts (l.desk file source) (l.shelf file))).1 := by
  cases op with
  | insert spans =>
    rw [kept_eq_self (fun _ => rfl) rfl]
    exact Ledger.shelf_withShelf_self ..
  | insertAtomic spans =>
    rw [kept_eq_self (fun _ => rfl) rfl, run, Ledger.shelf_insertAtomic, drafts]
    split <;> rfl
  | create draft =>
    rw [kept_eq_self (fun _ => rfl) rfl]
    exact l.shelf_create file source draft
  | sections =>
    rw [kept_eq_self (fun _ => rfl) rfl]
    rfl
  | decorate =>
    rw [kept_eq_self (fun _ => rfl) rfl]
    rfl
  | clear =>
    have hkept : kept source (l.shelf file) clear = [] := by
      rw [kept_of_marks rfl]
      exact List.filter_eq_nil_iff.mpr fun _ _ => Bool.false_ne_true
    rw [hkept]
    exact Ledger.shelf_withShelf_self ..
  | delete i =>
    rw [kept_of_marks rfl]
    exact Ledger.shelf_withShelf_self ..
  | remove i =>
    rw [kept_remove]
    exact l.shelf_remove file source i
  | reparse =>
    rw [run, Ledger.reparse, drafts]
    cases hcut : fileSpans source.lines with
    | error fault =>
      rw [kept_reparse_of_error hcut, Ledger.desk, hcut]
      rfl
    | ok spans =>
      rw [kept_reparse_of_ok hcut, Ledger.desk, hcut]
      simp [Ledger.insert, Ledger.clear, Ledger.desk]
  | settle status =>
    rw [kept_of_keeps fun _ => rfl]
    exact Ledger.shelf_withShelf_self ..
  | reset =>
    rw [kept_of_keeps fun _ => rfl]
    exact Ledger.shelf_withShelf_self ..
  | append status line text =>
    rw [kept_of_keeps fun _ => rfl]
    exact Ledger.shelf_withShelf_self ..
  | apply status diagnostics =>
    rw [kept_of_keeps fun _ => rfl, run, Ledger.apply, Ledger.shelf_withShelf_self,
      Shelf.apply_fst, marks]
    simp only [Section.replay_ofCompilation]
    rfl

/-- An operation on a file replaces the shelf of that file, if anything. -/
lemma exists_run_eq_withShelf (file : FileId) (l : Ledger) (source : Source) (op : FileOperation) :
    ∃ shelf, (op.run file l source).1 = l.withShelf file shelf := by
  have hself : ∃ shelf, l = l.withShelf file shelf := ⟨_, (l.withShelf_shelf file).symm⟩
  cases op with
  | insert spans => exact ⟨_, rfl⟩
  | insertAtomic spans =>
    rw [run, Ledger.insertAtomic]
    split
    · exact ⟨_, rfl⟩
    · exact hself
  | create draft =>
    rw [run, Ledger.create]
    split
    · exact ⟨_, rfl⟩
    · exact hself
  | sections => exact hself
  | decorate => exact hself
  | clear => exact ⟨_, rfl⟩
  | delete i => exact ⟨_, rfl⟩
  | remove i =>
    rw [run, Ledger.remove]
    split
    · exact hself
    · split
      · exact ⟨_, rfl⟩
      · exact hself
  | reparse =>
    rw [run, Ledger.reparse]
    split
    · exact hself
    · exact ⟨_, l.withShelf_withShelf file _ _⟩
  | settle status => exact ⟨_, rfl⟩
  | reset => exact ⟨_, rfl⟩
  | append status line text => exact ⟨_, rfl⟩
  | apply status diagnostics => exact ⟨_, rfl⟩

/-- **What an operation does to a ledger.**  It leaves the registry and the other files alone; of
its file some sections go, the others replay the marks of the operation, and drafts are stored
behind them up to the first that is refused. -/
theorem run_fst (file : FileId) (l : Ledger) (source : Source) (op : FileOperation) :
    (op.run file l source).1 = l.withShelf file
      ((op.kept source (l.shelf file)).store (l.desk file source)
        (op.drafts (l.desk file source) (l.shelf file))).1 := by
  obtain ⟨shelf, hrun⟩ := op.exists_run_eq_withShelf file l source
  have hshelf := op.shelf_run_self file l source
  rw [hrun, Ledger.shelf_withShelf_self] at hshelf
  rw [hrun, hshelf]

end FileOperation

end SectionLedger
