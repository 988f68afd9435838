import Mathlib
import SectionLedger.Proofs.Ledger.Laminar

/-!
# Deletion undoes creation

A section is only admitted if its interval clashes with no stored one, and an interval clashes with
itself.  So no stored section has the interval of a new one, and deleting that interval takes away
the new section alone, also from a shelf that is not laminar (`Ledger.delete_create`).

On a laminar shelf no two sections share an interval, so deleting one takes away one section
(`Shelf.Laminar.delete_eq`).  What is left is compatible with the interval, so a section of that
interval is admitted again (`Shelf.Laminar.accept_delete`).
-/

namespace SectionLedger

/-- Intervals that do not clash are different. -/
lemma Interval.ne_of_clashesWith_eq_false {i j : Interval} (h : i.clashesWith j = false) :
    i ≠ j := by
  rintro rfl
  simp [clashesWith] at h

namespace Shelf

variable {desk : Desk} {shelf older newer : Shelf} {draft : Draft} {s : Section} {i : Interval}

/-- Whether a section of an interval is stored. -/
lemma hasInterval_iff : shelf.hasInterval i = true ↔ ∃ s ∈ shelf, s.toInterval = i := by
  simp [hasInterval]

/-- No section of another interval is deleted. -/
lemma delete_eq_self (h : ∀ s ∈ shelf, s.toInterval ≠ i) : shelf.delete i = shelf :=
  List.filter_eq_self.mpr fun s hs => by simpa using h s hs

/-- Where all other sections have other intervals, one section is deleted. -/
lemma delete_append_cons (holder : ∀ t ∈ older, t.toInterval ≠ s.toInterval)
    (hnewer : ∀ t ∈ newer, t.toInterval ≠ s.toInterval) :
    Shelf.delete (older ++ s :: newer) s.toInterval = older ++ newer := by
  have hkept : older.delete s.toInterval = older := delete_eq_self holder
  have hkept' : newer.delete s.toInterval = newer := delete_eq_self hnewer
  unfold delete at hkept hkept' ⊢
  rw [List.filter_append, List.filter_cons_of_neg (by simp), hkept, hkept']

/-- A section that has just been admitted is the only one of its interval. -/
lemma delete_concat_of_accept (h : accept desk shelf draft = .ok s) :
    Shelf.delete (shelf ++ [s]) s.toInterval = shelf := by
  obtain ⟨-, hclash, -, rfl⟩ := accept_eq_ok_iff.mp h
  have hother : ∀ t ∈ shelf, t.toInterval ≠ (desk.sectionOf draft).toInterval :=
    fun t ht => Interval.ne_of_clashesWith_eq_false (hclash t ht)
  rw [delete_append_cons hother (by simp), List.append_nil]

namespace Laminar

/-- The sections around one of a laminar shelf are compatible with it. -/
lemma compatible_of_split (h : Shelf.Laminar (older ++ s :: newer)) :
    ∀ t ∈ older ++ newer, Interval.Compatible t.toInterval s.toInterval := by
  obtain ⟨-, hrest, hacross⟩ := List.pairwise_append.mp h.compatible
  intro t ht
  rcases List.mem_append.mp ht with ht | ht
  · exact hacross t ht s List.mem_cons_self
  · exact ((List.pairwise_cons.mp hrest).1 t ht).symm

/-- From a laminar shelf, one section is deleted. -/
lemma delete_eq (h : Shelf.Laminar (older ++ s :: newer)) :
    Shelf.delete (older ++ s :: newer) s.toInterval = older ++ newer := by
  have hne : ∀ t ∈ older ++ newer, t.toInterval ≠ s.toInterval := fun t ht heq =>
    (h.compatible_of_split t ht).1 (congrArg Interval.first heq)
  exact delete_append_cons (fun t ht => hne t (List.mem_append_left _ ht))
    fun t ht => hne t (List.mem_append_right _ ht)

/-- A section of an interval that has been deleted from a laminar shelf is admitted again. -/
lemma accept_delete (h : Shelf.Laminar (older ++ s :: newer))
    (hinterval : draft.span.toInterval = s.toInterval) (hcovers : desk.source.Covers s.toInterval)
    (hkind : desk.kinds.contains draft.span.kind = true) :
    accept desk (older ++ newer) draft = .ok (desk.sectionOf draft) := by
  rw [← hinterval] at hcovers
  refine accept_eq_ok_iff.mpr ⟨hcovers, fun t ht => ?_, hkind, rfl⟩
  have hnonempty : t.first ≤ t.last := h.nonempty t (by
    rcases List.mem_append.mp ht with ht | ht
    · exact List.mem_append_left _ ht
    · exact List.mem_append_right _ (List.mem_cons_of_mem s ht))
  rw [Interval.clashesWith_eq_false_iff hnonempty hcovers.2.1, hinterval]
  exact h.compatible_of_split t ht

end Laminar

end Shelf

namespace Ledger

variable {l l' : Ledger} {file : FileId} {source : Source} {draft : Draft} {s : Section}
  {i : Interval}

/-- Deleting a section that is not there changes nothing. -/
lemma delete_of_not_hasInterval (h : (l.shelf file).hasInterval i = false) :
    (l.delete file i).1 = l := by
  have hother : ∀ s ∈ l.shelf file, s.toInterval ≠ i := by
    simpa [Shelf.hasInterval] using h
  rw [delete, Shelf.delete_eq_self hother, withShelf_shelf]

/-- What creating a section does, if it is admitted. -/
lemma create_eq_ok_iff :
    l.create file source draft = (l', .ok s) ↔
      Shelf.accept (l.desk file source) (l.shelf file) draft = .ok s ∧
        l' = l.withShelf file (l.shelf file ++ [s]) := by
  rw [create]
  cases Shelf.accept (l.desk file source) (l.shelf file) draft with
  | error fault => simp
  | ok t =>
    simp only [Prod.mk.injEq, Except.ok.injEq]
    constructor
    · rintro ⟨rfl, rfl⟩
      exact ⟨rfl, rfl⟩
    · rintro ⟨rfl, rfl⟩
      exact ⟨rfl, rfl⟩

/-- Deletion takes back a creation, whatever else the ledger holds. -/
lemma delete_create (h : l.create file source draft = (l', .ok s)) :
    l'.delete file s.toInterval = (l, true) := by
  obtain ⟨haccept, rfl⟩ := create_eq_ok_iff.mp h
  have hthere : Shelf.hasInterval (l.shelf file ++ [s]) s.toInterval = true :=
    Shelf.hasInterval_iff.mpr ⟨s, by simp, rfl⟩
  rw [delete, shelf_withShelf_self, Shelf.delete_concat_of_accept haccept, withShelf_withShelf,
    withShelf_shelf, hthere]

/-- **Creation and deletion undo each other.**  Deleting a section that has just been created gives
back the ledger, whatever it holds.  In a reachable ledger an interval is deleted exactly if it is
stored, and one section goes with it; then a section of that interval and a registered kind can be
created, if the source has these lines, and the intervals of the file are what they were. -/
theorem create_delete_inverse (l : Ledger) (file : FileId) :
    (∀ (source : Source) (draft : Draft) (s : Section), (l.create file source draft).2 = .ok s →
      (l.create file source draft).1.delete file draft.span.toInterval = (l, true)) ∧
    (l.Reachable → ∀ i : Interval,
      ((l.delete file i).2 = true ↔ ∃ s ∈ l.shelf file, s.toInterval = i) ∧
      ((l.delete file i).2 = true → ∃ (older : Shelf) (s : Section) (newer : Shelf),
        l.shelf file = older ++ s :: newer ∧ s.toInterval = i ∧
        (l.delete file i).1 = l.withShelf file (older ++ newer) ∧
        ∀ (source : Source) (draft : Draft), draft.span.toInterval = i → source.Covers i →
          l.kinds.contains draft.span.kind = true →
            ∃ l', (l.delete file i).1.create file source draft =
                (l', .ok ((l.desk file source).sectionOf draft)) ∧
              l' = l.withShelf file (older ++ newer ++ [(l.desk file source).sectionOf draft]) ∧
              ((l'.shelf file).map (·.toInterval)).Perm ((l.shelf file).map (·.toInterval)))) := by
  refine ⟨fun source draft s hs => ?_, fun hl i => ⟨Shelf.hasInterval_iff, fun hthere => ?_⟩⟩
  · have hcreate : l.create file source draft = (_, .ok s) := Prod.ext rfl hs
    obtain ⟨haccept, -⟩ := create_eq_ok_iff.mp hcreate
    obtain ⟨-, -, -, rfl⟩ := Shelf.accept_eq_ok_iff.mp haccept
    exact delete_create hcreate
  · obtain ⟨s, hs, rfl⟩ := Shelf.hasInterval_iff.mp hthere
    obtain ⟨older, newer, hshelf⟩ := List.append_of_mem hs
    have hlaminar := hl.laminar file
    rw [hshelf] at hlaminar
    have hdelete : (l.delete file s.toInterval).1 = l.withShelf file (older ++ newer) := by
      rw [delete, hshelf, hlaminar.delete_eq]
    refine ⟨older, s, newer, hshelf, rfl, hdelete, fun source draft hinterval hcovers hkind => ?_⟩
    have haccept : Shelf.accept (l.desk file source) (older ++ newer) draft =
        .ok ((l.desk file source).sectionOf draft) :=
      hlaminar.accept_delete hinterval hcovers hkind
    refine ⟨_, ?_, rfl, ?_⟩
    · rw [hdelete, create_eq_ok_iff, shelf_withShelf_self, withShelf_withShelf]
      exact ⟨haccept, rfl⟩
    · have hlast : ((l.desk file source).sectionOf draft).toInterval = s.toInterval := hinterval
      rw [shelf_withShelf_self, hshelf]
      simp only [List.map_append, List.map_cons, List.map_nil, hlast, List.append_assoc]
      exact (List.perm_append_singleton _ _).append_left _

/-- A comment between two others in a procedure gives way to inline assembly on the same lines, and
that can be taken back. -/
theorem create_delete_inverse_of_inner_comment :
    let source : Source := ⟨["a", "b", "c", "d", "e", "f"], false⟩
    let l : Ledger := Step.run (ofKinds .builtin) ⟨.on 7 (.insert
      [⟨⟨1, 6⟩, Kind.procedure⟩, ⟨⟨2, 2⟩, Kind.comment⟩, ⟨⟨3, 4⟩, Kind.comment⟩,
        ⟨⟨5, 5⟩, Kind.comment⟩]), source⟩
    let draft : Draft := ⟨⟨⟨3, 4⟩, Kind.assembly⟩, "again", ""⟩
    l.Reachable ∧ (l.delete 7 ⟨3, 4⟩).2 = true ∧ source.Covers ⟨3, 4⟩ ∧
      l.kinds.contains Kind.assembly = true ∧
      ∃ l', (l.delete 7 ⟨3, 4⟩).1.create 7 source draft =
          (l', .ok ((l.desk 7 source).sectionOf draft)) ∧
        ((l'.shelf 7).map (·.toInterval)).Perm ((l.shelf 7).map (·.toInterval)) ∧
        l'.delete 7 ⟨3, 4⟩ = ((l.delete 7 ⟨3, 4⟩).1, true) := by
  intro source l draft
  have hl : l.Reachable := .step (.ofKinds .builtin) _
  have hthere : (l.delete 7 ⟨3, 4⟩).2 = true := by decide +kernel
  have hcovers : source.Covers ⟨3, 4⟩ := by decide
  have hkind : l.kinds.contains Kind.assembly = true := by decide
  obtain ⟨older, s, newer, -, -, -, hagain⟩ :=
    ((create_delete_inverse l 7).2 hl ⟨3, 4⟩).2 hthere
  obtain ⟨l', hcreate, -, hperm⟩ := hagain source draft rfl hcovers hkind
  have hback : l'.delete 7 ⟨3, 4⟩ = ((l.delete 7 ⟨3, 4⟩).1, true) := by
    have h := (create_delete_inverse (l.delete 7 ⟨3, 4⟩).1 7).1 source draft _
      (congrArg Prod.snd hcreate)
    rwa [hcreate] at h
  exact ⟨hl, hthere, hcovers, hkind, l', hcreate, hperm, hback⟩

end Ledger

end SectionLedger
