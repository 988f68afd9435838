import Mathlib
import SectionLedger.Proofs.Ledger.Laminar

/-!
# Storing a batch

A shelf *admits* a batch when every draft of it covers lines of the source and has a registered
kind, and the stored intervals together with those of the batch are pairwise compatible
(`Shelf.Admits`).  The order of the batch does not matter for that, since compatibility is symmetric
(`Interval.Compatible.symm`).

On a laminar shelf a batch that is admitted is stored whole; otherwise its drafts are stored up to
the first that gives offence, and the fault says what the offence is (`Shelf.Refusal`).  Both are
read off one induction along the batch, `Shelf.store_cases`.
-/

namespace SectionLedger

namespace Shelf

variable {desk : Desk} {shelf : Shelf} {draft : Draft} {drafts : List Draft}

/-- A batch that may be stored: every draft covers lines of the source and has a registered kind,
and all intervals, stored and new, are pairwise compatible. -/
structure Admits (desk : Desk) (shelf : Shelf) (drafts : List Draft) : Prop where
  covers : ∀ d ∈ drafts, desk.source.Covers d.span.toInterval
  registered : ∀ d ∈ drafts, desk.kinds.contains d.span.kind = true
  compatible : (shelf.map (·.toInterval) ++ drafts.map (·.span.toInterval)).Pairwise
    Interval.Compatible

/-- Why a draft is refused: its range first, then the earliest stored section that its interval is
not compatible with, then its kind. -/
inductive Refusal (desk : Desk) (shelf : Shelf) (draft : Draft) : Fault → Prop where
  | range (hrange : ¬ desk.source.Covers draft.span.toInterval) :
      Refusal desk shelf draft
        (.badRange draft.span.first draft.span.last desk.source.lines.length)
  | conflict {older newer : Shelf} {t : Section}
      (hcovers : desk.source.Covers draft.span.toInterval)
      (hshelf : shelf = older ++ t :: newer)
      (holder : ∀ u ∈ older, Interval.Compatible u.toInterval draft.span.toInterval)
      (hconflict : ¬ Interval.Compatible t.toInterval draft.span.toInterval) :
      Refusal desk shelf draft (.conflict draft.span.first draft.span.last t.first t.last)
  | kind (hcovers : desk.source.Covers draft.span.toInterval)
      (hshelf : ∀ t ∈ shelf, Interval.Compatible t.toInterval draft.span.toInterval)
      (hkind : desk.kinds.contains draft.span.kind = false) :
      Refusal desk shelf draft (.unknownKind draft.span.kind)

/-- The fault of a draft that is not admitted says what the offence is. -/
lemma refusal_of_accept_eq_error (hlaminar : shelf.Laminar) {fault : Fault}
    (h : accept desk shelf draft = .error fault) : Refusal desk shelf draft fault := by
  rw [accept_eq] at h
  by_cases hcovers : desk.source.Covers draft.span.toInterval
  · have hcompatible : ∀ t ∈ shelf, t.toInterval.clashesWith draft.span.toInterval = false ↔
        Interval.Compatible t.toInterval draft.span.toInterval := fun t ht =>
      Interval.clashesWith_eq_false_iff (hlaminar.nonempty t ht) hcovers.2.1
    rw [if_pos hcovers] at h
    cases hclash : shelf.clash? draft.span.toInterval with
    | some t =>
      rw [hclash] at h
      obtain rfl := Except.error.inj h
      obtain ⟨ht, older, newer, rfl, holder⟩ := List.find?_eq_some_iff_append.mp hclash
      refine .conflict hcovers rfl (fun u hu => ?_) fun hnot => ?_
      · exact (hcompatible u (List.mem_append_left _ hu)).mp (by simpa using holder u hu)
      · have := (hcompatible t (by simp)).mpr hnot
        rw [ht] at this
        contradiction
    | none =>
      rw [hclash] at h
      rw [clash?_eq_none_iff] at hclash
      cases hkind : desk.kinds.contains draft.span.kind with
      | true => simp [hkind] at h
      | false =>
        rw [hkind] at h
        obtain rfl := Except.error.inj h
        exact .kind hcovers (fun t ht => (hcompatible t ht).mp (hclash t ht)) hkind
  · rw [if_neg hcovers] at h
    obtain rfl := Except.error.inj h
    exact .range hcovers

/-- A batch whose first draft is admitted may be stored if the rest may, behind its section. -/
lemma admits_cons_iff {s : Section} (h : accept desk shelf draft = .ok s) :
    Admits desk shelf (draft :: drafts) ↔ Admits desk (shelf ++ [s]) drafts := by
  obtain ⟨hcovers, -, hkind, rfl⟩ := accept_eq_ok_iff.mp h
  have hintervals : shelf.map (·.toInterval) ++ (draft :: drafts).map (·.span.toInterval) =
      (shelf ++ [desk.sectionOf draft]).map (·.toInterval) ++
        drafts.map (·.span.toInterval) := by
    simp [Desk.sectionOf, Section.fresh]
  constructor
  · rintro ⟨hc, hk, hp⟩
    exact ⟨fun d hd => hc d (List.mem_cons_of_mem _ hd),
      fun d hd => hk d (List.mem_cons_of_mem _ hd), hintervals ▸ hp⟩
  · rintro ⟨hc, hk, hp⟩
    exact ⟨List.forall_mem_cons.mpr ⟨hcovers, hc⟩, List.forall_mem_cons.mpr ⟨hkind, hk⟩,
      hintervals ▸ hp⟩

/-- The empty batch may be stored on a laminar shelf. -/
lemma admits_nil (hlaminar : shelf.Laminar) : Admits desk shelf [] where
  covers := by simp
  registered := by simp
  compatible := by
    rw [List.map_nil, List.append_nil, List.pairwise_map]
    exact hlaminar.compatible

/-- A batch may be stored in any order if it may be stored in one. -/
lemma Admits.perm {drafts' : List Draft} (h : Admits desk shelf drafts)
    (hperm : drafts.Perm drafts') : Admits desk shelf drafts' where
  covers d hd := h.covers d (hperm.mem_iff.mpr hd)
  registered d hd := h.registered d (hperm.mem_iff.mpr hd)
  compatible :=
    (((hperm.map _).append_left _).pairwise_iff fun hij => hij.symm).mp h.compatible

/-- A batch with a draft that gives offence may not be stored. -/
lemma Refusal.not_admits {before after : List Draft} {fault : Fault}
    (h : Refusal desk (shelf ++ before.map desk.sectionOf) draft fault) :
    ¬ Admits desk shelf (before ++ draft :: after) := by
  intro hadmits
  have hdraft : draft ∈ before ++ draft :: after := by simp
  cases h with
  | range hrange => exact hrange (hadmits.covers draft hdraft)
  | kind hcovers hshelf hkind =>
    rw [hadmits.registered draft hdraft] at hkind
    contradiction
  | @conflict older newer t hcovers hshelf holder hconflict =>
    have hintervals : shelf.map (·.toInterval) ++
        (before ++ draft :: after).map (·.span.toInterval) =
          (shelf ++ before.map desk.sectionOf).map (·.toInterval) ++
            draft.span.toInterval :: after.map (·.span.toInterval) := by
      simp [Desk.sectionOf, Section.fresh]
    have hpairs := hadmits.compatible
    rw [hintervals, List.pairwise_append] at hpairs
    have ht : t ∈ shelf ++ before.map desk.sectionOf := by simp [hshelf]
    exact hconflict (hpairs.2.2 _ (List.mem_map_of_mem ht) _ List.mem_cons_self)

/-- A batch is stored whole, or up to the first draft that is refused; all that comes before that
draft may be stored. -/
lemma store_cases (hlaminar : shelf.Laminar) (desk : Desk) (drafts : List Draft) :
    (Admits desk shelf drafts ∧
      store desk shelf drafts = (shelf ++ drafts.map desk.sectionOf, .ok drafts.length)) ∨
    ∃ before draft after fault, drafts = before ++ draft :: after ∧ Admits desk shelf before ∧
      Refusal desk (shelf ++ before.map desk.sectionOf) draft fault ∧
      store desk shelf drafts = (shelf ++ before.map desk.sectionOf, .error fault) := by
  induction drafts generalizing shelf with
  | nil => exact .inl ⟨admits_nil hlaminar, by simp [store]⟩
  | cons draft drafts ih =>
    cases haccept : accept desk shelf draft with
    | error fault =>
      refine .inr ⟨[], draft, drafts, fault, rfl, admits_nil hlaminar, ?_, ?_⟩
      · rw [List.map_nil, List.append_nil]
        exact refusal_of_accept_eq_error hlaminar haccept
      · simp [store, haccept]
    | ok s =>
      have hcons : Admits desk shelf (draft :: drafts) ↔ Admits desk (shelf ++ [s]) drafts :=
        admits_cons_iff haccept
      have hlaminar' := hlaminar.concat haccept
      obtain ⟨-, -, -, rfl⟩ := accept_eq_ok_iff.mp haccept
      rcases ih hlaminar' with ⟨hadmits, hstore⟩ | hrefused
      · refine .inl ⟨hcons.mpr hadmits, ?_⟩
        simp only [store, haccept, hstore]
        simp [Except.map]
      · obtain ⟨before, d, after, fault, rfl, hadmits, hrefusal, hstore⟩ := hrefused
        refine .inr ⟨draft :: before, d, after, fault, rfl,
          (admits_cons_iff haccept).mpr hadmits, ?_, ?_⟩
        · simpa using hrefusal
        · simp only [store, haccept, hstore]
          simp [Except.map]

end Shelf

namespace Ledger

variable {l : Ledger}

/-- A batch for a reachable ledger is stored whole, or up to the first draft that is refused. -/
lemma insert_cases (hl : l.Reachable) (file : FileId) (source : Source) (drafts : List Draft) :
    (Shelf.Admits (l.desk file source) (l.shelf file) drafts ∧
      l.insert file source drafts =
        (l.withShelf file (l.shelf file ++ drafts.map (l.desk file source).sectionOf),
          .ok drafts.length)) ∨
    ∃ before draft after fault, drafts = before ++ draft :: after ∧
      Shelf.Admits (l.desk file source) (l.shelf file) before ∧
      Shelf.Refusal (l.desk file source)
        (l.shelf file ++ before.map (l.desk file source).sectionOf) draft fault ∧
      l.insert file source drafts =
        (l.withShelf file (l.shelf file ++ before.map (l.desk file source).sectionOf),
          .error fault) := by
  rcases Shelf.store_cases (hl.laminar file) (l.desk file source) drafts with
    ⟨hadmits, hstore⟩ | ⟨before, draft, after, fault, hsplit, hadmits, hrefusal, hstore⟩
  · exact .inl ⟨hadmits, by rw [insert, hstore]⟩
  · exact .inr ⟨before, draft, after, fault, hsplit, hadmits, hrefusal, by rw [insert, hstore]⟩

/-- A batch for a reachable ledger is stored whole if anything is reported stored, which is so when
the shelf admits it. -/
lemma insert_eq_ok_iff (hl : l.Reachable) {file : FileId} {source : Source} {drafts : List Draft}
    {n : ℕ} : (l.insert file source drafts).2 = .ok n ↔
      n = drafts.length ∧ Shelf.Admits (l.desk file source) (l.shelf file) drafts := by
  rcases insert_cases hl file source drafts with
    ⟨hadmits, hinsert⟩ | ⟨before, draft, after, fault, rfl, -, hrefusal, hinsert⟩
  · simp [hinsert, hadmits, eq_comm]
  · simp [hinsert, hrefusal.not_admits]

/-- A batch that the shelf of a reachable ledger admits is stored whole. -/
lemma insert_of_admits (hl : l.Reachable) {file : FileId} {source : Source} {drafts : List Draft}
    (h : Shelf.Admits (l.desk file source) (l.shelf file) drafts) :
    l.insert file source drafts =
      (l.withShelf file (l.shelf file ++ drafts.map (l.desk file source).sectionOf),
        .ok drafts.length) := by
  rcases insert_cases hl file source drafts with
    ⟨-, hinsert⟩ | ⟨before, draft, after, fault, rfl, -, hrefusal, -⟩
  · exact hinsert
  · exact absurd h hrefusal.not_admits

/-- **A batch is stored whole exactly when it is laminar with what is stored.**  Its sections stand
behind the old ones then.  That does not depend on the order of the batch, and neither does the set
of sections that are stored.  Otherwise the drafts before the first that gives offence are stored,
and the fault says what the offence is. -/
theorem insert_stores_laminar_batch (hl : l.Reachable) (file : FileId) (source : Source)
    (drafts : List Draft) :
    ((l.insert file source drafts).2 = .ok drafts.length ↔
      Shelf.Admits (l.desk file source) (l.shelf file) drafts) ∧
    (Shelf.Admits (l.desk file source) (l.shelf file) drafts →
      l.insert file source drafts =
        (l.withShelf file (l.shelf file ++ drafts.map (l.desk file source).sectionOf),
          .ok drafts.length)) ∧
    (∀ drafts' : List Draft, drafts.Perm drafts' →
      ((∃ n, (l.insert file source drafts).2 = .ok n) ↔
        ∃ n, (l.insert file source drafts').2 = .ok n) ∧
      ((∃ n, (l.insert file source drafts).2 = .ok n) →
        ((l.insert file source drafts).1.shelf file).Perm
          ((l.insert file source drafts').1.shelf file))) ∧
    (¬ Shelf.Admits (l.desk file source) (l.shelf file) drafts →
      ∃ before draft after fault, drafts = before ++ draft :: after ∧
        Shelf.Admits (l.desk file source) (l.shelf file) before ∧
        Shelf.Refusal (l.desk file source)
          (l.shelf file ++ before.map (l.desk file source).sectionOf) draft fault ∧
        l.insert file source drafts =
          (l.withShelf file (l.shelf file ++ before.map (l.desk file source).sectionOf),
            .error fault)) := by
  have hok : ∀ ds : List Draft, (∃ n, (l.insert file source ds).2 = .ok n) ↔
      Shelf.Admits (l.desk file source) (l.shelf file) ds := by
    intro ds
    simp [insert_eq_ok_iff hl]
  refine ⟨?_, insert_of_admits hl, ?_, ?_⟩
  · simp [insert_eq_ok_iff hl]
  · intro drafts' hperm
    refine ⟨?_, ?_⟩
    · rw [hok, hok]
      exact ⟨fun h => h.perm hperm, fun h => h.perm hperm.symm⟩
    · intro h
      have hadmits := (hok drafts).mp h
      rw [insert_of_admits hl hadmits, insert_of_admits hl (hadmits.perm hperm),
        shelf_withShelf_self, shelf_withShelf_self]
      exact (hperm.map _).append_left _
  · intro hnot
    rcases insert_cases hl file source drafts with ⟨hadmits, -⟩ | hrefused
    · exact absurd hadmits hnot
    · exact hrefused

/-- Of two comments in a procedure that share a line, the second is refused and the first stays. -/
theorem insert_of_overlapping_comments :
    let source : Source := ⟨["a", "b", "c", "d", "e", "f"], false⟩
    let l : Ledger := Step.run (ofKinds .builtin)
      ⟨.on 7 (.insert [⟨⟨1, 5⟩, Kind.procedure⟩]), source⟩
    let drafts : List Draft := [⟨⟨⟨2, 3⟩, Kind.comment⟩, "", ""⟩, ⟨⟨⟨3, 4⟩, Kind.comment⟩, "", ""⟩]
    l.Reachable ∧ ¬ Shelf.Admits (l.desk 7 source) (l.shelf 7) drafts ∧
      ∃ before draft after fault, drafts = before ++ draft :: after ∧
        Shelf.Admits (l.desk 7 source) (l.shelf 7) before ∧
        Shelf.Refusal (l.desk 7 source) (l.shelf 7 ++ before.map (l.desk 7 source).sectionOf)
          draft fault ∧
        l.insert 7 source drafts =
          (l.withShelf 7 (l.shelf 7 ++ before.map (l.desk 7 source).sectionOf), .error fault) := by
  intro source l drafts
  have hl : l.Reachable := .step (.ofKinds .builtin) _
  have hnot : ¬ Shelf.Admits (l.desk 7 source) (l.shelf 7) drafts := fun h =>
    absurd h.compatible (by decide +kernel)
  exact ⟨hl, hnot, (insert_stores_laminar_batch hl 7 source drafts).2.2.2 hnot⟩

end Ledger

end SectionLedger
