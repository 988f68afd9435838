import Mathlib
import SectionLedger.Ledger.Shelf
import SectionLedger.Proofs.Text.Lines

/-!
# Admission to a shelf

A draft is admitted when its lines lie in the source, its interval clashes with no stored section
and its kind is registered; it then becomes the section `Desk.sectionOf`.  `Shelf.accept_eq_ok_iff`
says so for one draft, and `Shelf.store_eq_of_admissible` for drafts that clash neither with the
shelf nor with each other.  Whatever is on the shelf, a batch is stored whole, or up to the first
draft that is refused (`Shelf.store_eq_or_refused`).
-/

namespace SectionLedger

/-- The section that a draft becomes: no verdict yet, and the covered lines as they are now. -/
def Desk.sectionOf (desk : Desk) (draft : Draft) : Section :=
  .fresh desk.file draft.span (desk.source.excerpt draft.span.toInterval) draft.name
    draft.description

/-- The lines of a source that an interval covers, with a line feed between them. -/
lemma Source.excerpt_eq_intercalate (source : Source) (i : Interval) :
    source.excerpt i = "\n".intercalate ((source.lines.take i.last).drop (i.first - 1)) := by
  have hlines : ∀ ls : List String, (ls.map String.toList).map String.ofList = ls := by
    simp [Function.comp_def]
  rw [excerpt, text, Text.ofList_joinLines, hlines]

namespace Shelf

variable {desk : Desk} {shelf : Shelf} {draft : Draft} {s : Section}

/-- Nothing on the shelf clashes when no section does. -/
lemma clash?_eq_none_iff {i : Interval} :
    shelf.clash? i = none ↔ ∀ s ∈ shelf, s.toInterval.clashesWith i = false := by
  simp [clash?]

/-- The three tests of admission, in their order: range, interval, kind. -/
theorem accept_eq (desk : Desk) (shelf : Shelf) (draft : Draft) :
    accept desk shelf draft =
      if desk.source.Covers draft.span.toInterval then
        match shelf.clash? draft.span.toInterval with
        | some t => .error (.conflict draft.span.first draft.span.last t.first t.last)
        | none =>
          if desk.kinds.contains draft.span.kind then .ok (desk.sectionOf draft)
          else .error (.unknownKind draft.span.kind)
      else .error (.badRange draft.span.first draft.span.last desk.source.lines.length) := by
  rw [accept, Source.checkRange]
  by_cases hcovers : desk.source.Covers draft.span.toInterval
  · rw [if_pos hcovers, if_pos hcovers]
    cases shelf.clash? draft.span.toInterval with
    | some t => rfl
    | none => cases hkind : desk.kinds.contains draft.span.kind <;> simp <;> rfl
  · rw [if_neg hcovers, if_neg hcovers]
    rfl

/-- A draft is admitted when its range, its interval and its kind are. -/
theorem accept_eq_ok_iff :
    accept desk shelf draft = .ok s ↔
      desk.source.Covers draft.span.toInterval ∧
      (∀ t ∈ shelf, t.toInterval.clashesWith draft.span.toInterval = false) ∧
      desk.kinds.contains draft.span.kind = true ∧ s = desk.sectionOf draft := by
  rw [accept_eq, ← clash?_eq_none_iff]
  by_cases hcovers : desk.source.Covers draft.span.toInterval
  · cases hclash : shelf.clash? draft.span.toInterval with
    | some t => simp [hcovers]
    | none =>
      by_cases hkind : desk.kinds.contains draft.span.kind <;> simp [hcovers, hkind, eq_comm]
  · simp [hcovers]

/-- Drafts that are admissible and clash neither with the shelf nor with each other are stored, in
their order, behind what is on the shelf. -/
theorem store_eq_of_admissible {drafts : List Draft}
    (hcovers : ∀ d ∈ drafts, desk.source.Covers d.span.toInterval)
    (hkinds : ∀ d ∈ drafts, desk.kinds.contains d.span.kind = true)
    (hshelf : ∀ t ∈ shelf, ∀ d ∈ drafts, t.toInterval.clashesWith d.span.toInterval = false)
    (hdrafts : drafts.Pairwise fun d e =>
      d.span.toInterval.clashesWith e.span.toInterval = false) :
    store desk shelf drafts = (shelf ++ drafts.map desk.sectionOf, .ok drafts.length) := by
  induction drafts generalizing shelf with
  | nil => simp [store]
  | cons d drafts ih =>
    obtain ⟨hd, hdrafts⟩ := List.pairwise_cons.mp hdrafts
    have haccept : accept desk shelf d = .ok (desk.sectionOf d) :=
      accept_eq_ok_iff.mpr ⟨hcovers d List.mem_cons_self,
        fun t ht => hshelf t ht d List.mem_cons_self, hkinds d List.mem_cons_self, rfl⟩
    have hshelf' : ∀ t ∈ shelf ++ [desk.sectionOf d], ∀ e ∈ drafts,
        t.toInterval.clashesWith e.span.toInterval = false := by
      intro t ht e he
      rcases List.mem_append.mp ht with ht | ht
      · exact hshelf t ht e (List.mem_cons_of_mem d he)
      · rw [List.mem_singleton.mp ht]
        exact hd e he
    have hrest := ih (fun e he => hcovers e (List.mem_cons_of_mem d he))
      (fun e he => hkinds e (List.mem_cons_of_mem d he)) hshelf' hdrafts
    simp only [store, haccept, hrest]
    simp [Except.map]

/-- Drafts are stored whole, or up to the first that is refused. -/
lemma store_eq_or_refused (desk : Desk) (shelf : Shelf) (drafts : List Draft) :
    store desk shelf drafts = (shelf ++ drafts.map desk.sectionOf, .ok drafts.length) ∨
    ∃ before draft after fault, drafts = before ++ draft :: after ∧
      accept desk (shelf ++ before.map desk.sectionOf) draft = .error fault ∧
      store desk shelf drafts = (shelf ++ before.map desk.sectionOf, .error fault) := by
  induction drafts generalizing shelf with
  | nil => exact .inl (by simp [store])
  | cons d drafts ih =>
    cases haccept : accept desk shelf d with
    | error fault =>
      refine .inr ⟨[], d, drafts, fault, rfl, ?_, ?_⟩
      · simpa using haccept
      · simp [store, haccept]
    | ok s =>
      obtain ⟨-, -, -, rfl⟩ := accept_eq_ok_iff.mp haccept
      rcases ih (shelf ++ [desk.sectionOf d]) with hstore | hrefused
      · left
        simp only [store, haccept, hstore]
        simp [Except.map]
      · obtain ⟨before, draft, after, fault, rfl, hdraft, hstore⟩ := hrefused
        refine .inr ⟨d :: before, draft, after, fault, rfl, ?_, ?_⟩
        · simpa using hdraft
        · simp only [store, haccept, hstore]
          simp [Except.map]

/-- The drafts that are stored are the first ones, and their sections stand behind the shelf. -/
lemma exists_store_fst_eq (desk : Desk) (shelf : Shelf) (drafts : List Draft) :
    ∃ stored, stored <+: drafts ∧
      (store desk shelf drafts).1 = shelf ++ stored.map desk.sectionOf := by
  rcases store_eq_or_refused desk shelf drafts with
    hstore | ⟨before, draft, after, fault, rfl, -, hstore⟩
  · exact ⟨drafts, List.prefix_rfl, by rw [hstore]⟩
  · exact ⟨before, List.prefix_append _ _, by rw [hstore]⟩

/-- What holds of a shelf, and goes on to hold whenever one draft is admitted, holds after drafts
have been stored. -/
lemma store_induction {P : Shelf → Prop} (h : P shelf)
    (hstep : ∀ shelf draft s, P shelf → accept desk shelf draft = .ok s → P (shelf ++ [s]))
    (drafts : List Draft) : P (store desk shelf drafts).1 := by
  induction drafts generalizing shelf with
  | nil => exact h
  | cons d drafts ih =>
    rw [store]
    cases haccept : accept desk shelf d with
    | error fault => exact h
    | ok s => exact ih (hstep shelf d s h haccept)

/-- What holds of the sections on a shelf, and of the section that any draft in the range of the
source and of a registered kind becomes, holds of the sections on the shelf after drafts have been
stored. -/
lemma forall_mem_store {P : Section → Prop} (hshelf : ∀ s ∈ shelf, P s)
    (hdraft : ∀ draft : Draft, desk.source.Covers draft.span.toInterval →
      desk.kinds.contains draft.span.kind = true → P (desk.sectionOf draft))
    (drafts : List Draft) : ∀ s ∈ (store desk shelf drafts).1, P s := by
  refine store_induction (P := fun shelf => ∀ s ∈ shelf, P s) hshelf ?_ drafts
  intro shelf draft s hshelf haccept t ht
  obtain ⟨hcovers, -, hkind, rfl⟩ := accept_eq_ok_iff.mp haccept
  rcases List.mem_append.mp ht with ht | ht
  · exact hshelf t ht
  · rw [List.mem_singleton.mp ht]
    exact hdraft draft hcovers hkind

end Shelf

end SectionLedger
