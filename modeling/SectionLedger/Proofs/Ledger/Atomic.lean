import Mathlib
import SectionLedger.Proofs.Ledger.Admission
import SectionLedger.Proofs.Ledger.Effect

/-!
# All or nothing

A batch can be stored in two ways: up to the first draft that is refused, or all or nothing.  Both
put the same drafts to the same test, against a shelf that grows with every draft that passes, so
their results agree whatever the ledger holds; they differ in what a refusal leaves behind
(`Ledger.insert_insertAtomic_cases`).

A batch in two parts is tested like its parts, the second against the shelf that the first one
leaves (`Shelf.store_append`).  So storing it all or nothing is storing both parts all or nothing,
one after the other (`Ledger.insertAtomic_append_eq_ok_iff`).
-/

namespace SectionLedger

/-- A batch in two parts is stored as its parts are: the second behind the first, if that one is
stored whole. -/
lemma Shelf.store_append (desk : Desk) (shelf : Shelf) (first second : List Draft) :
    store desk shelf (first ++ second) =
      match store desk shelf first with
      | (shelf', .ok n) => ((store desk shelf' second).1, (store desk shelf' second).2.map (n + ·))
      | (shelf', .error fault) => (shelf', .error fault) := by
  induction first generalizing shelf with
  | nil =>
    rw [List.nil_append]
    refine Prod.ext rfl ?_
    cases hresult : (store desk shelf second).2 <;> simp [store, hresult, Except.map]
  | cons d first ih =>
    cases haccept : accept desk shelf d with
    | error fault => simp [store, haccept]
    | ok s =>
      simp only [List.cons_append, store, haccept, ih]
      cases hfirst : store desk (shelf ++ [s]) first with
      | mk shelf' result =>
        cases result with
        | error fault => rfl
        | ok n =>
          cases hsecond : (store desk shelf' second).2 <;>
            simp [Except.map, hsecond, Nat.add_right_comm, Nat.add_assoc]

namespace Ledger

variable {l l' : Ledger} {file : FileId} {source : Source} {drafts first second : List Draft}
  {n : ℕ}

/-- The two ways to store a batch.  Either all of it is stored, in both; or a draft is refused, and
then one way keeps what was stored before that draft and the other keeps nothing. -/
lemma insert_insertAtomic_cases (l : Ledger) (file : FileId) (source : Source)
    (drafts : List Draft) :
    (l.insert file source drafts = l.insertAtomic file source drafts ∧
      l.insertAtomic file source drafts =
        (l.withShelf file (l.shelf file ++ drafts.map (l.desk file source).sectionOf),
          .ok drafts.length)) ∨
    ∃ before draft after fault, drafts = before ++ draft :: after ∧
      Shelf.accept (l.desk file source)
        (l.shelf file ++ before.map (l.desk file source).sectionOf) draft = .error fault ∧
      l.insert file source drafts =
        (l.withShelf file (l.shelf file ++ before.map (l.desk file source).sectionOf),
          .error fault) ∧
      l.insertAtomic file source drafts = (l, .error fault) := by
  rcases Shelf.store_eq_or_refused (l.desk file source) (l.shelf file) drafts with
    hstore | ⟨before, draft, after, fault, hsplit, hrefused, hstore⟩
  · left
    rw [insert, insertAtomic, hstore]
    exact ⟨rfl, rfl⟩
  · right
    refine ⟨before, draft, after, fault, hsplit, hrefused, ?_, ?_⟩
    · rw [insert, hstore]
    · rw [insertAtomic, hstore]

/-- A batch is stored all or nothing exactly when storing it leaves no draft out. -/
lemma insertAtomic_eq_ok_iff :
    l.insertAtomic file source drafts = (l', .ok n) ↔
      l.insert file source drafts = (l', .ok n) := by
  rcases insert_insertAtomic_cases l file source drafts with
    ⟨heq, -⟩ | ⟨before, draft, after, fault, -, -, hinsert, hatomic⟩
  · rw [heq]
  · rw [hinsert, hatomic]
    simp

/-- A batch for a file whose shelf has been replaced is stored on the new shelf. -/
lemma insert_withShelf (l : Ledger) (file : FileId) (source : Source) (shelf : Shelf)
    (drafts : List Draft) :
    (l.withShelf file shelf).insert file source drafts =
      (l.withShelf file (shelf.store (l.desk file source) drafts).1,
        (shelf.store (l.desk file source) drafts).2) := by
  have hdesk : (l.withShelf file shelf).desk file source = l.desk file source := rfl
  rw [insert, shelf_withShelf_self, hdesk, withShelf_withShelf]

/-- A batch in two parts is stored in order as its parts are. -/
lemma insert_append (l : Ledger) (file : FileId) (source : Source) (first second : List Draft) :
    l.insert file source (first ++ second) =
      match l.insert file source first with
      | (l₁, .ok k) =>
        ((l₁.insert file source second).1, (l₁.insert file source second).2.map (k + ·))
      | (l₁, .error fault) => (l₁, .error fault) := by
  unfold insert
  rw [Shelf.store_append]
  cases hfirst : (l.shelf file).store (l.desk file source) first with
  | mk shelf' result =>
    cases result with
    | error fault => rfl
    | ok k =>
      have hsecond := l.insert_withShelf file source shelf' second
      simp only [insert, Prod.mk.injEq] at hsecond ⊢
      rw [hsecond.1, hsecond.2]
      exact ⟨rfl, rfl⟩

/-- A batch in two parts is stored all or nothing exactly when its parts are, one after the other;
the ledger is the same then, and the numbers of sections add up. -/
lemma insertAtomic_append_eq_ok_iff :
    l.insertAtomic file source (first ++ second) = (l', .ok n) ↔
      ∃ l₁ k m, l.insertAtomic file source first = (l₁, .ok k) ∧
        l₁.insertAtomic file source second = (l', .ok m) ∧ n = k + m := by
  simp only [insertAtomic_eq_ok_iff]
  rw [insert_append]
  cases l.insert file source first with
  | mk l₁ result =>
    cases result with
    | error fault => simp
    | ok k =>
      cases hsecond : l₁.insert file source second with
      | mk l₂ result =>
        cases result with
        | error fault => simp [hsecond, Except.map]
        | ok m => simp [hsecond, Except.map, eq_comm]

/-- A batch in two parts can be stored all or nothing if its parts can, one after the other, and the
ledger is the same then. -/
lemma insertAtomic_append (l : Ledger) (file : FileId) (source : Source)
    (first second : List Draft) :
    ((∃ n, (l.insertAtomic file source (first ++ second)).2 = .ok n) ↔
      (∃ n, (l.insertAtomic file source first).2 = .ok n) ∧
        ∃ n, ((l.insertAtomic file source first).1.insertAtomic file source second).2 = .ok n) ∧
    ∀ n, (l.insertAtomic file source (first ++ second)).2 = .ok n →
      (l.insertAtomic file source (first ++ second)).1 =
        ((l.insertAtomic file source first).1.insertAtomic file source second).1 := by
  refine ⟨⟨?_, ?_⟩, ?_⟩
  · rintro ⟨n, hn⟩
    obtain ⟨l₁, k, m, hfirst, hsecond, -⟩ := insertAtomic_append_eq_ok_iff.mp (Prod.ext rfl hn)
    rw [hfirst, hsecond]
    exact ⟨⟨k, rfl⟩, m, rfl⟩
  · rintro ⟨⟨k, hk⟩, m, hm⟩
    have hboth := insertAtomic_append_eq_ok_iff.mpr
      ⟨_, k, m, Prod.ext rfl hk, Prod.ext rfl hm, rfl⟩
    exact ⟨k + m, congrArg Prod.snd hboth⟩
  · intro n hn
    obtain ⟨l₁, k, m, hfirst, hsecond, -⟩ := insertAtomic_append_eq_ok_iff.mp (Prod.ext rfl hn)
    rw [hfirst, hsecond]

/-- **Storing all or nothing has the result of storing in order.**  If nothing is refused, both ways
store the whole batch.  Otherwise storing all or nothing leaves the ledger as it is, where storing
in order leaves the sections of the drafts before the first that is refused.  And a batch in two
parts is stored all or nothing exactly when its parts are, one after the other. -/
theorem insertAtomic_agrees_with_insert (l : Ledger) (file : FileId) (source : Source)
    (drafts : List Draft) :
    (l.insertAtomic file source drafts).2 = (l.insert file source drafts).2 ∧
    (∀ n, (l.insertAtomic file source drafts).2 = .ok n → n = drafts.length ∧
      (l.insertAtomic file source drafts).1 = (l.insert file source drafts).1 ∧
      (l.insert file source drafts).1 =
        l.withShelf file (l.shelf file ++ drafts.map (l.desk file source).sectionOf)) ∧
    (∀ fault, (l.insertAtomic file source drafts).2 = .error fault →
      (l.insertAtomic file source drafts).1 = l ∧
      ∃ before draft after, drafts = before ++ draft :: after ∧
        Shelf.accept (l.desk file source)
          (l.shelf file ++ before.map (l.desk file source).sectionOf) draft = .error fault ∧
        (l.insert file source drafts).1 =
          l.withShelf file (l.shelf file ++ before.map (l.desk file source).sectionOf)) ∧
    ∀ first second, drafts = first ++ second →
      ((∃ n, (l.insertAtomic file source drafts).2 = .ok n) ↔
        (∃ n, (l.insertAtomic file source first).2 = .ok n) ∧
          ∃ n, ((l.insertAtomic file source first).1.insertAtomic file source second).2 = .ok n) ∧
      ∀ n, (l.insertAtomic file source drafts).2 = .ok n →
        (l.insertAtomic file source drafts).1 =
          ((l.insertAtomic file source first).1.insertAtomic file source second).1 := by
  have hparts := l.insertAtomic_append file source
  rcases insert_insertAtomic_cases l file source drafts with
    ⟨hinsert, hatomic⟩ | ⟨before, draft, after, fault, hsplit, hrefused, hinsert, hatomic⟩
  · refine ⟨by rw [hinsert], fun n hn => ?_, fun fault hfault => ?_,
      fun first second hparted => hparted ▸ hparts first second⟩
    · rw [hatomic] at hn
      rw [hinsert, hatomic]
      exact ⟨(Except.ok.inj hn).symm, rfl, rfl⟩
    · rw [hatomic] at hfault
      contradiction
  · refine ⟨by rw [hinsert, hatomic], fun n hn => ?_, fun fault' hfault => ?_,
      fun first second hparted => hparted ▸ hparts first second⟩
    · rw [hatomic] at hn
      contradiction
    · rw [hatomic] at hfault
      obtain rfl := Except.error.inj hfault
      rw [hinsert, hatomic]
      exact ⟨rfl, before, draft, after, hsplit, hrefused, rfl⟩

end Ledger

end SectionLedger
