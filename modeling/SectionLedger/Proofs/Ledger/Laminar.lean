import Mathlib
import SectionLedger.Proofs.Ledger.Admission
import SectionLedger.Proofs.Ledger.Effect

/-!
# Runs and laminar shelves

A step of a run is an operation together with the source that it is given, which may be another one
each time.  A ledger is *reachable* if some run leads to it from a ledger without sections.

The shelves of a reachable ledger are *laminar*: every section covers some lines, and any two differ
at both ends and are apart or strictly nested (`Ledger.Reachable.laminar`).  Each of the three steps
of an operation keeps a shelf laminar, so every operation does.
-/

namespace SectionLedger

/-- Compatibility of intervals is symmetric. -/
lemma Interval.Compatible.symm {i j : Interval} (h : Compatible i j) : Compatible j i :=
  ⟨h.1.symm, h.2.1.symm, h.2.2.elim (fun hij => .inl hij.symm) fun hij => .inr hij.symm⟩

/-- A shelf of nonempty sections of which any two differ at both ends and are apart or strictly
nested. -/
structure Shelf.Laminar (shelf : Shelf) : Prop where
  nonempty : ∀ s ∈ shelf, s.first ≤ s.last
  compatible : shelf.Pairwise fun s t => Interval.Compatible s.toInterval t.toInterval

namespace Shelf.Laminar

variable {shelf : Shelf}

/-- The empty shelf is laminar. -/
lemma nil : Shelf.Laminar [] := ⟨by simp, .nil⟩

/-- A laminar shelf stays laminar when sections go. -/
lemma filter (h : shelf.Laminar) (p : Section → Bool) : Shelf.Laminar (shelf.filter p) :=
  ⟨fun s hs => h.nonempty s (List.mem_of_mem_filter hs), h.compatible.filter p⟩

/-- A laminar shelf stays laminar when marks are replayed. -/
lemma replay (h : shelf.Laminar) (marks : List Mark) :
    Shelf.Laminar (shelf.map (·.replay marks)) where
  nonempty := by
    rw [List.forall_mem_map]
    intro s hs
    rw [Section.replay_toSpan]
    exact h.nonempty s hs
  compatible := by
    rw [List.pairwise_map]
    exact h.compatible.imp fun hst => by rwa [Section.replay_toSpan, Section.replay_toSpan]

/-- A laminar shelf stays laminar when a section is admitted. -/
lemma concat (h : shelf.Laminar) {desk : Desk} {draft : Draft} {s : Section}
    (hs : accept desk shelf draft = .ok s) : Shelf.Laminar (shelf ++ [s]) := by
  obtain ⟨hcovers, hclash, -, rfl⟩ := accept_eq_ok_iff.mp hs
  refine ⟨fun t ht => ?_, List.pairwise_append.mpr ⟨h.compatible, by simp, fun t ht u hu => ?_⟩⟩
  · rcases List.mem_append.mp ht with ht | ht
    · exact h.nonempty t ht
    · rw [List.mem_singleton.mp ht]
      exact hcovers.2.1
  · rw [List.mem_singleton.mp hu]
    exact (Interval.clashesWith_eq_false_iff (h.nonempty t ht) hcovers.2.1).mp (hclash t ht)

/-- A laminar shelf stays laminar when drafts are stored up to the first that is refused. -/
lemma store (h : shelf.Laminar) (desk : Desk) (drafts : List Draft) :
    Shelf.Laminar (Shelf.store desk shelf drafts).1 :=
  store_induction h (fun _ _ _ h haccept => h.concat haccept) drafts

end Shelf.Laminar

/-! ### Runs -/

/-- An operation with the source that it is given. -/
structure Step where
  op : Operation
  source : Source

namespace Step

/-- The ledger after a step. -/
def run (l : Ledger) (step : Step) : Ledger := (step.op.run (fun _ => step.source) l).1

/-- The ledger after some steps. -/
def runAll (l : Ledger) (steps : List Step) : Ledger := steps.foldl run l

end Step

/-- The ledgers that a run leads to from a ledger without sections. -/
inductive Ledger.Reachable : Ledger → Prop where
  | ofKinds (kinds : Registry) : Reachable (Ledger.ofKinds kinds)
  | step {l : Ledger} (h : Reachable l) (step : Step) : Reachable (step.run l)

namespace Ledger.Reachable

variable {l : Ledger}

/-- A run from a reachable ledger ends in one. -/
lemma runAll (h : l.Reachable) (steps : List Step) : (Step.runAll l steps).Reachable := by
  induction steps generalizing l with
  | nil => exact h
  | cons step steps ih => exact ih (h.step step)

/-- The shelves of a reachable ledger are laminar. -/
theorem laminar (h : l.Reachable) (file : FileId) : (l.shelf file).Laminar := by
  induction h with
  | ofKinds kinds => exact Shelf.Laminar.nil
  | @step l h step ih =>
    obtain ⟨op, source⟩ := step
    cases op with
    | register name => exact ih
    | on other op =>
      rw [Step.run, Operation.run, FileOperation.run_fst]
      by_cases hfile : other = file
      · subst hfile
        rw [Ledger.shelf_withShelf_self]
        exact ((ih.filter _).replay _).store _ _
      · rw [Ledger.shelf_withShelf_other _ hfile]
        exact ih

end Ledger.Reachable

end SectionLedger
