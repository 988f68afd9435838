import Mathlib
import SectionLedger.Proofs.Ledger.Saved
import SectionLedger.Proofs.Ledger.Reparse

/-!
# Ledgers that can be saved

A ledger can be saved and loaded again if its numbers fit a machine word.  The numbers of a loaded
ledger do, because none that does not is read (`Ledger.fitsWords_of_ofSavedText`); and they still do
after any operation that is given a source (`Ledger.FitsWords.run`).
-/

namespace SectionLedger

open Json

/-! ### What is read fits -/

/-- A number that is read as a word fits one. -/
lemma Json.Value.lt_of_asWord? {v : Value} {n : ℕ} (h : v.asWord? = some n) :
    n < Text.wordLimit := by
  cases v with
  | nat m =>
    obtain ⟨hm, heq⟩ := Option.ite_none_right_eq_some.mp h
    rwa [← Option.some.inj heq]
  | _ => cases h

/-- A required word fits a word. -/
lemma Json.Slot.lt_of_required_asWord? {slot : Slot} {n : ℕ}
    (h : slot.required Value.asWord? = some n) : n < Text.wordLimit := by
  cases slot with
  | given v => exact Value.lt_of_asWord? h
  | absent => cases h
  | beyondEnd => cases h

/-- What is read as a list is read item by item. -/
lemma Json.Value.exists_of_mem_asList? {α : Type} {decode : Value → Option α} {v : Value}
    {as : List α} (h : v.asList? decode = some as) : ∀ a ∈ as, ∃ item, decode item = some a := by
  cases v with
  | list items =>
    rw [asList?] at h
    induction items generalizing as with
    | nil =>
      obtain rfl : [] = as := Option.some.inj h
      simp
    | cons item items ih =>
      rw [List.mapM_cons] at h
      obtain ⟨a, ha, h⟩ := Option.bind_eq_some_iff.mp h
      obtain ⟨rest, hrest, h⟩ := Option.bind_eq_some_iff.mp h
      obtain rfl : a :: rest = as := Option.some.inj h
      exact List.forall_mem_cons.mpr ⟨⟨item, ha⟩, ih hrest⟩
  | _ => cases h

/-- The numbers of a section that is read fit. -/
lemma Section.fitsWords_of_ofJson? {v : Value} {s : Section} (h : ofJson? v = some s) :
    s.FitsWords := by
  unfold ofJson? at h
  obtain ⟨slots, -, h⟩ := Option.bind_eq_some_iff.mp h
  split at h
  · obtain ⟨file, hfile, h⟩ := Option.bind_eq_some_iff.mp h
    obtain ⟨first, hfirst, h⟩ := Option.bind_eq_some_iff.mp h
    obtain ⟨last, hlast, h⟩ := Option.bind_eq_some_iff.mp h
    -- the other fields are texts and a status
    obtain ⟨kind, -, h⟩ := Option.bind_eq_some_iff.mp h
    obtain ⟨status, -, h⟩ := Option.bind_eq_some_iff.mp h
    obtain ⟨statusData, -, h⟩ := Option.bind_eq_some_iff.mp h
    obtain ⟨snapshot, -, h⟩ := Option.bind_eq_some_iff.mp h
    obtain ⟨name, -, h⟩ := Option.bind_eq_some_iff.mp h
    obtain ⟨description, -, h⟩ := Option.bind_eq_some_iff.mp h
    obtain rfl := Option.some.inj h
    exact ⟨Slot.lt_of_required_asWord? hfile, Slot.lt_of_required_asWord? hfirst,
      Slot.lt_of_required_asWord? hlast⟩
  · cases h

namespace ShelfTable

/-- The numbers of a table fit: those of the files with sections, and those of the sections. -/
def FitsWords (t : ShelfTable) : Prop :=
  ∀ file, ∀ s ∈ t.get file, file < Text.wordLimit ∧ s.FitsWords

/-- A table whose numbers fit keeps this when a shelf is put in whose numbers fit. -/
lemma FitsWords.set {t : ShelfTable} (h : t.FitsWords) {file : FileId} {shelf : Shelf}
    (hfile : file < Text.wordLimit) (hshelf : ∀ s ∈ shelf, s.FitsWords) :
    (t.set file shelf).FitsWords := by
  intro other s hs
  by_cases heq : file = other
  · subst heq
    rw [get_set_self] at hs
    exact ⟨hfile, hshelf s hs⟩
  · rw [get_set_other t heq] at hs
    exact h other s hs

/-- The numbers of a table fit when its members have been read. -/
lemma FitsWords.setMembers {t t' : ShelfTable} (h : t.FitsWords) {members : List (Key × Value)}
    (hread : t.setMembers members = some t') : t'.FitsWords := by
  induction members generalizing t with
  | nil =>
    obtain rfl : t = t' := Option.some.inj hread
    exact h
  | cons member members ih =>
    obtain ⟨key, v⟩ := member
    unfold ShelfTable.setMembers at hread
    obtain ⟨file, hfile, hread⟩ := Option.bind_eq_some_iff.mp hread
    obtain ⟨shelf, hshelf, hread⟩ := Option.bind_eq_some_iff.mp hread
    have hlt : file < Text.wordLimit := by
      cases key with
      | name text => cases hfile
      | number n =>
        obtain ⟨hn, heq⟩ := Option.ite_none_right_eq_some.mp hfile
        rwa [← Option.some.inj heq]
    refine ih (h.set hlt ?_) hread
    intro s hs
    obtain ⟨item, hitem⟩ := Value.exists_of_mem_asList? hshelf s hs
    exact Section.fitsWords_of_ofJson? hitem

/-- The numbers of a table that is read fit. -/
lemma fitsWords_of_ofJson? {v : Value} {t : ShelfTable} (h : ofJson? v = some t) :
    t.FitsWords := by
  have hempty : empty.FitsWords := fun _ _ hs => absurd hs List.not_mem_nil
  cases v with
  | object members => exact hempty.setMembers h
  | _ => cases h

end ShelfTable

namespace Ledger

variable {l : Ledger} {file : FileId} {source : Source}

/-- The numbers of the ledger without sections fit. -/
lemma fitsWords_empty : empty.FitsWords := fun _ _ hs => absurd hs List.not_mem_nil

/-- **What is loaded can be saved.**  The numbers of a loaded ledger fit a machine word. -/
theorem fitsWords_of_ofSavedText {text : String} (h : ofSavedText text = .ok l) :
    l.FitsWords := by
  unfold ofSavedText at h
  split at h
  · next l' hread =>
    obtain rfl : l' = l := Except.ok.inj h
    obtain ⟨v, -, hread⟩ := Option.bind_eq_some_iff.mp hread
    unfold ofJson? at hread
    obtain ⟨slots, -, hread⟩ := Option.bind_eq_some_iff.mp hread
    split at hread
    · next kindsSlot shelvesSlot =>
      obtain ⟨kinds, -, hread⟩ := Option.bind_eq_some_iff.mp hread
      obtain ⟨shelves, hshelves, hread⟩ := Option.bind_eq_some_iff.mp hread
      obtain rfl := Option.some.inj hread
      cases shelvesSlot with
      | given v => exact ShelfTable.fitsWords_of_ofJson? hshelves
      | absent => cases hshelves
      | beyondEnd => cases hshelves
    · cases hread
  · contradiction

/-! ### What stays so -/

/-- The numbers of a ledger fit when a shelf is put in whose numbers fit. -/
lemma FitsWords.withShelf (h : l.FitsWords) {shelf : Shelf} (hfile : file < Text.wordLimit)
    (hshelf : ∀ s ∈ shelf, s.FitsWords) : (l.withShelf file shelf).FitsWords :=
  ShelfTable.FitsWords.set h hfile hshelf

/-- The numbers of a ledger fit when sections of a file go. -/
lemma FitsWords.delete (h : l.FitsWords) (file : FileId) (i : Interval) :
    (l.delete file i).1.FitsWords := by
  intro other s hs
  by_cases heq : file = other
  · subst heq
    rw [Ledger.delete, shelf_withShelf_self] at hs
    exact h file s (List.mem_of_mem_filter hs)
  · rw [Ledger.delete, shelf_withShelf_other l heq] at hs
    exact h other s hs

/-- The numbers of a ledger fit after any operation on a file with no more lines than a machine word
can count. -/
lemma FitsWords.run (h : l.FitsWords) (hfile : file < Text.wordLimit)
    (hlines : source.lines.length < Text.wordLimit) (op : FileOperation) :
    (op.run file l source).1.FitsWords := by
  rw [FileOperation.run_fst]
  refine h.withShelf hfile (Shelf.forall_mem_store ?_ ?_ _)
  · intro s hs
    obtain ⟨s₀, hs₀, rfl⟩ := List.mem_map.mp hs
    obtain ⟨hsfile, hsfirst, hslast⟩ := (h file s₀ (List.mem_of_mem_filter hs₀)).2
    refine ⟨?_, ?_, ?_⟩
    · rwa [Section.replay_file]
    · rwa [Section.replay_toSpan]
    · rwa [Section.replay_toSpan]
  · rintro draft ⟨-, hfirst, hlast⟩ -
    exact ⟨hfile, (hfirst.trans hlast).trans_lt hlines, hlast.trans_lt hlines⟩

/-- The numbers of a ledger fit when a file with no more lines than a machine word can count is cut
again. -/
lemma FitsWords.reparse (h : l.FitsWords) (hfile : file < Text.wordLimit)
    (hlines : source.lines.length < Text.wordLimit) : (l.reparse file source).1.FitsWords :=
  h.run hfile hlines .reparse

end Ledger

end SectionLedger
