import Mathlib
import SectionLedger.Proofs.Ledger.Deletion
import SectionLedger.Proofs.Source.ReadBack

/-!
# Removing a section with its lines

A removal changes two things, one after the other: a section goes from the ledger, and then its
lines go from the source.  The second step checks the range again, and if it failed, the ledger would
have lost the section and the source kept its lines (`Ledger.removeInSteps`).  It cannot fail: the
range was checked before the first step, and whether the numbers of the sections on the shelf still
fit the source does not matter for it (`Ledger.removeInSteps_eq_remove`).

So a removal changes both things or none (`Ledger.Removed`).
-/

namespace SectionLedger

namespace Source

variable {s : Source} {i : Interval}

/-- Lines of which none has its number in an interval all stay when those in the interval go. -/
lemma filter_zipIdx_eq_self {lines : List String} {k : ℕ}
    (h : ∀ n, k ≤ n → n < k + lines.length → i.containsLine n = false) :
    ((lines.zipIdx k).filter fun line => !i.containsLine line.2) = lines.zipIdx k := by
  refine List.filter_eq_self.mpr fun line hline => ?_
  obtain ⟨hk, hn, -⟩ := List.mem_zipIdx hline
  simp [h line.2 hk hn]

/-- Lines that all have their numbers in an interval all go. -/
lemma filter_zipIdx_eq_nil {lines : List String} {k : ℕ}
    (h : ∀ n, k ≤ n → n < k + lines.length → i.containsLine n = true) :
    ((lines.zipIdx k).filter fun line => !i.containsLine line.2) = [] := by
  refine List.filter_eq_nil_iff.mpr fun line hline => ?_
  obtain ⟨hk, hn, -⟩ := List.mem_zipIdx hline
  simp [h line.2 hk hn]

/-- The lines that are left are those whose number is not in the interval. -/
lemma lines_without_eq_filter (h : s.Covers i) :
    (s.without i).lines =
      ((s.lines.zipIdx 1).filter fun line => !i.containsLine line.2).map Prod.fst := by
  obtain ⟨hfirst, hle, hlast⟩ := h
  -- the lines before the interval, those in it and those after it
  let before := s.lines.take (i.first - 1)
  let inside := (s.lines.take i.last).drop (i.first - 1)
  let after := s.lines.drop i.last
  have hbefore : before.length = i.first - 1 := List.length_take_of_le (by omega)
  have hinside : inside.length = i.last - (i.first - 1) := by
    rw [List.length_drop, List.length_take_of_le hlast]
  have hsplit : s.lines = before ++ (inside ++ after) := by
    have hstart : before = (s.lines.take i.last).take (i.first - 1) := by
      rw [List.take_take, Nat.min_eq_left (by omega)]
    rw [hstart, ← List.append_assoc, List.take_append_drop, List.take_append_drop]
  have hkeep : ((before.zipIdx 1).filter fun line => !i.containsLine line.2) = before.zipIdx 1 :=
    filter_zipIdx_eq_self fun n h1 h2 => by
      rw [← Bool.not_eq_true, Interval.containsLine_iff]
      omega
  have hdrop : ((inside.zipIdx (1 + before.length)).filter
      fun line => !i.containsLine line.2) = [] :=
    filter_zipIdx_eq_nil fun n h1 h2 => by
      rw [Interval.containsLine_iff]
      omega
  have hkeep' : ((after.zipIdx (1 + before.length + inside.length)).filter
      fun line => !i.containsLine line.2) = after.zipIdx (1 + before.length + inside.length) :=
    filter_zipIdx_eq_self fun n h1 h2 => by
      rw [← Bool.not_eq_true, Interval.containsLine_iff]
      omega
  change before ++ after = _
  rw [hsplit, List.zipIdx_append, List.zipIdx_append, List.filter_append, List.filter_append,
    hkeep, hdrop, hkeep', List.nil_append, List.map_append, List.zipIdx_map_fst,
    List.zipIdx_map_fst]

/-- The lines of a range are all that a source loses. -/
lemma length_lines_without (h : s.Covers i) :
    (s.without i).lines.length + (i.last - i.first + 1) = s.lines.length := by
  obtain ⟨hfirst, hle, hlast⟩ := h
  rw [without, List.length_append, List.length_take, List.length_drop]
  omega

/-- A source without some of its lines is another one. -/
lemma without_ne_self (h : s.Covers i) : s.without i ≠ s := by
  intro heq
  have hlength := length_lines_without h
  rw [heq] at hlength
  omega

end Source

namespace Ledger

variable {l : Ledger} {file : FileId} {source : Source} {i : Interval}

/-- Deletes a section, and after it the lines of its interval from the source, each with the checks
of its own.  A fault of the second step comes after the first has been taken. -/
def removeInSteps (l : Ledger) (file : FileId) (source : Source) (i : Interval) :
    Ledger × Source × Except Fault Bool :=
  match source.checkRange i with
  | .error fault => (l, source, .error fault)
  | .ok () =>
    match l.delete file i with
    | (l', false) => (l', source, .ok false)
    | (l', true) =>
      match source.deleteRange i with
      | .error fault => (l', source, .error fault)
      | .ok source' => (l', source', .ok true)

/-- The second step has no fault once the first has been taken. -/
lemma removeInSteps_eq_remove (l : Ledger) (file : FileId) (source : Source) (i : Interval) :
    l.removeInSteps file source i = l.remove file source i := by
  unfold removeInSteps remove
  cases hrange : source.checkRange i with
  | error fault => rfl
  | ok =>
    have hlines : source.deleteRange i = .ok (source.without i) :=
      Source.deleteRange_eq_ok_iff.mpr ⟨Source.checkRange_eq_ok_iff.mp hrange, rfl⟩
    cases hthere : (l.shelf file).hasInterval i with
    | false =>
      have hdelete : l.delete file i = (l, false) :=
        Prod.ext (delete_of_not_hasInterval hthere) hthere
      simp only [hdelete, if_false, Bool.false_eq_true]
    | true =>
      have hdelete : l.delete file i = ((l.delete file i).1, true) := Prod.ext rfl hthere
      rw [hdelete]
      simp only [hlines, if_true]

/-- A ledger that has lost a section is another one. -/
lemma delete_ne_self (h : (l.shelf file).hasInterval i = true) : (l.delete file i).1 ≠ l := by
  obtain ⟨s, hs, rfl⟩ := Shelf.hasInterval_iff.mp h
  intro heq
  rw [← heq, delete, shelf_withShelf_self] at hs
  simp [Shelf.delete] at hs

/-- What a removal comes to: the ledger and the source after it, and whether there was a section of
the interval. -/
structure Removed (l : Ledger) (file : FileId) (source : Source) (i : Interval)
    (after : Ledger × Source × Except Fault Bool) : Prop where
  /-- It fails exactly if the interval is no range of lines. -/
  error_iff : ∀ fault, after.2.2 = .error fault ↔
    ¬ (1 ≤ i.first ∧ i.first ≤ i.last ∧ i.last ≤ source.lines.length) ∧
      fault = .badRange i.first i.last source.lines.length
  /-- Otherwise it says whether a section of the interval was stored. -/
  ok_iff : ∀ found, after.2.2 = .ok found ↔
    (1 ≤ i.first ∧ i.first ≤ i.last ∧ i.last ≤ source.lines.length) ∧
      (found = true ↔ ∃ s ∈ l.shelf file, s.toInterval = i)
  /-- Where no section is removed, nothing is changed. -/
  unchanged : after.2.2 ≠ .ok true → after.1 = l ∧ after.2.1 = source
  /-- Where one is, the others of the file stay as they are and in their order. -/
  shelf_eq : after.2.2 = .ok true →
    after.1.shelf file = (l.shelf file).filter fun s => s.toInterval ≠ i
  /-- The other files, and the kinds, stay as they are in any case. -/
  other_eq : (∀ other ≠ file, after.1.shelf other = l.shelf other) ∧ after.1.kinds = l.kinds
  /-- The lines that are left are those whose number is not in the interval. -/
  lines_eq : after.2.2 = .ok true → after.2.1.lines =
    ((source.lines.zipIdx 1).filter fun line =>
      ¬ (i.first ≤ line.2 ∧ line.2 ≤ i.last)).map Prod.fst
  /-- A line feed at the end of the file stays. -/
  endsInNewline_eq : after.2.1.endsInNewline = source.endsInNewline
  /-- The section does not go without the lines, nor the lines without the section. -/
  together : after.1 = l ↔ after.2.1 = source

/-- A removal that fails. -/
lemma removed_of_not_covers (h : ¬ source.Covers i) :
    Removed l file source i
      (l, source, .error (.badRange i.first i.last source.lines.length)) where
  error_iff fault := by
    constructor
    · intro hfault
      exact ⟨h, (Except.error.inj hfault).symm⟩
    · rintro ⟨-, rfl⟩
      rfl
  ok_iff found := iff_of_false nofun fun hok => h hok.1
  unchanged _ := ⟨rfl, rfl⟩
  shelf_eq := nofun
  other_eq := ⟨fun _ _ => rfl, rfl⟩
  lines_eq := nofun
  endsInNewline_eq := rfl
  together := iff_of_true rfl rfl

/-- A removal that finds no section. -/
lemma removed_of_not_hasInterval (hcovers : source.Covers i)
    (h : (l.shelf file).hasInterval i = false) :
    Removed l file source i (l, source, .ok false) where
  error_iff fault := iff_of_false nofun fun herror => herror.1 hcovers
  ok_iff found := by
    rw [← Shelf.hasInterval_iff, h]
    cases found <;> simp [hcovers.1, hcovers.2]
  unchanged _ := ⟨rfl, rfl⟩
  shelf_eq := nofun
  other_eq := ⟨fun _ _ => rfl, rfl⟩
  lines_eq := nofun
  endsInNewline_eq := rfl
  together := iff_of_true rfl rfl

/-- A removal that finds one. -/
lemma removed_of_hasInterval (hcovers : source.Covers i)
    (h : (l.shelf file).hasInterval i = true) :
    Removed l file source i ((l.delete file i).1, source.without i, .ok true) where
  error_iff fault := iff_of_false nofun fun herror => herror.1 hcovers
  ok_iff found := by
    rw [← Shelf.hasInterval_iff, h]
    cases found <;> simp [hcovers.1, hcovers.2]
  unchanged hne := absurd rfl hne
  shelf_eq _ := by
    rw [delete, shelf_withShelf_self, Shelf.delete]
    exact List.filter_congr fun s _ => Bool.eq_iff_iff.mpr (by simp)
  other_eq := ⟨fun other hne => shelf_withShelf_other l (Ne.symm hne) _, rfl⟩
  lines_eq _ := by
    rw [Source.lines_without_eq_filter hcovers]
    congr 1
    refine List.filter_congr fun line _ => Bool.eq_iff_iff.mpr ?_
    rw [Bool.not_eq_true', ← Bool.not_eq_true, Interval.containsLine_iff, decide_eq_true_iff]
  endsInNewline_eq := rfl
  together := iff_of_false (delete_ne_self h) (Source.without_ne_self hcovers)

/-- **A removal takes a section with its lines, or nothing.**  Whatever the ledger holds, the second
of the two steps does not fail after the first. -/
theorem removeInSteps_removed (l : Ledger) (file : FileId) (source : Source) (i : Interval) :
    l.removeInSteps file source i = l.remove file source i ∧
      Removed l file source i (l.removeInSteps file source i) := by
  refine ⟨removeInSteps_eq_remove l file source i, ?_⟩
  rw [removeInSteps_eq_remove, remove, Source.checkRange]
  by_cases hcovers : source.Covers i
  · rw [if_pos hcovers]
    cases hthere : (l.shelf file).hasInterval i with
    | false => exact removed_of_not_hasInterval hcovers hthere
    | true => exact removed_of_hasInterval hcovers hthere
  · rw [if_neg hcovers]
    exact removed_of_not_covers hcovers

end Ledger

end SectionLedger
