import Mathlib
import SectionLedger.Proofs.Segmentation.Declarative

/-!
# Where the flat pass comes to

The states of the pass are the positions that it comes to, each with the spans that it has found
before (`PassReaches`).  A state tells the result of the pass but for what it finds from there on
(`PassReaches.flatSpans_eq`), and the pass succeeds exactly if it comes to the end of the lines
(`flatSpans_eq_ok_iff_passReaches`).

Nothing that the pass has found before a position depends on the lines from there on
(`PassReaches.restrict`).  The other way round, a state that is reached with the first lines is
reached with all of them (`PassReaches.append`), unless its position is the end of the first lines
and it got there with a run that the next line goes on with.
-/

namespace SectionLedger

/-- The positions that the pass comes to, each with the spans of positions that it has found
before. -/
inductive PassReaches (lines : List String) : ℕ → List Span → Prop where
  /-- The pass begins at the first line, and has found nothing. -/
  | start : PassReaches lines 0 []
  /-- A line that opens nothing is skipped. -/
  | skip {m : ℕ} {found : List Span} {line : String} (h : PassReaches lines m found)
      (hline : lines[m]? = some line) (hnone : Line.opening? line = none) :
      PassReaches lines (m + 1) found
  /-- A section is found with all its lines, and the pass goes on behind them. -/
  | take {m n : ℕ} {found : List Span} {line : String} {o : Opening} (h : PassReaches lines m found)
      (hline : lines[m]? = some line) (hopen : Line.opening? line = some o)
      (hreach : o.extent.reach line (lines.drop (m + 1)) = .ok n) :
      PassReaches lines (m + n + 1) (found ++ [⟨⟨m, m + n⟩, o.kind⟩])

section PassReaches

variable {lines more : List String} {m i : ℕ} {found : List Span} {line : String}

/-- The lines from a position on begin with the line there. -/
lemma drop_eq_cons_of_getElem? (hline : lines[m]? = some line) :
    lines.drop m = line :: lines.drop (m + 1) := by
  obtain ⟨hm, rfl⟩ := List.getElem?_eq_some_iff.mp hline
  exact List.drop_eq_getElem_cons hm

/-- The category at a position is that of the line there. -/
lemma categoryAt_of_getElem? (hline : lines[m]? = some line) :
    categoryAt lines m = Line.classify line := by
  rw [categoryAt, hline, Option.bind_some]

namespace PassReaches

/-! ### The steps of the pass by position -/

/-- The pass skips a line that begins no section. -/
lemma skip_of_isIdle (h : PassReaches lines m found) (hm : m < lines.length)
    (hidle : IsIdle lines m) : PassReaches lines (m + 1) found := by
  have hline : lines[m]? = some lines[m] := List.getElem?_eq_getElem hm
  exact .skip h hline ((isIdle_iff_opening? (categoryAt_of_getElem? hline).symm).mp hidle)

/-- The pass takes a section up to its end, and goes on behind it. -/
lemma take_of_endsAt {c : Category} {kind : Kind} {j : ℕ}
    (h : PassReaches lines m found) (hc : categoryAt lines m = some c)
    (hkind : c.kind? = some kind) (hj : c.EndsAt lines m j) :
    PassReaches lines (j + 1) (found ++ [⟨⟨m, j⟩, kind⟩]) := by
  obtain ⟨line, o, hdrop, hopen, rfl, hreach, -⟩ := exists_opening hc hkind
  obtain ⟨n, rfl⟩ := Nat.exists_eq_add_of_le hj.le
  have hline : lines[m]? = some line := by
    have hhead := congrArg List.head? hdrop
    rwa [List.head?_drop, List.head?_cons] at hhead
  exact .take h hline hopen ((hreach n).mpr hj)

/-- Induction along the states of the pass, with its steps said by position. -/
@[elab_as_elim]
theorem position_rec {motive : ∀ m found, PassReaches lines m found → Prop}
    (start : motive 0 [] .start)
    (idle : ∀ m found (h : PassReaches lines m found) (hm : m < lines.length)
      (hidle : IsIdle lines m), motive m found h →
      motive (m + 1) found (h.skip_of_isIdle hm hidle))
    (ended : ∀ m found c kind j (h : PassReaches lines m found) (hc : categoryAt lines m = some c)
      (hkind : c.kind? = some kind) (hj : c.EndsAt lines m j), motive m found h →
      motive (j + 1) (found ++ [⟨⟨m, j⟩, kind⟩]) (h.take_of_endsAt hc hkind hj))
    (h : PassReaches lines m found) : motive m found h := by
  induction h with
  | start => exact start
  | @skip m found line h hline hnone ih =>
    have hm : m < lines.length := (List.getElem?_eq_some_iff.mp hline).1
    have hidle := (isIdle_iff_opening? (categoryAt_of_getElem? hline).symm).mpr hnone
    exact idle m found h hm hidle ih
  | @take m n found line o h hline hopen hreach ih =>
    obtain ⟨c, hc, ho⟩ := Option.bind_eq_some_iff.mp hopen
    have hkind : c.kind? = some o.kind := by rw [Category.kind?_eq_map, ho, Option.map_some]
    have hend : c.EndsAt lines m (m + n) := by
      rw [Extent.reach_eq_ok_iff hc ho, ← drop_eq_cons_of_getElem? hline,
        Category.endsAt_drop] at hreach
      exact hreach
    exact ended m found c o.kind (m + n) h ((categoryAt_of_getElem? hline).trans hc) hkind hend ih

/-- The pass does not come past the end. -/
lemma le_length (h : PassReaches lines m found) : m ≤ lines.length := by
  induction h using position_rec with
  | start => exact Nat.zero_le _
  | idle m found h hm hidle ih => exact hm
  | ended m found c kind j h hc hkind hj ih => exact hj.lt_length hc

/-! ### What a state tells of the result -/

/-- The result of the pass is what it has found before a position, followed by what it finds from
there on. -/
theorem flatSpans_eq (h : PassReaches lines m found) (number : ℕ) :
    flatSpans number lines =
      (flatSpans (number + m) (lines.drop m)).map (found.map (Span.shift number) ++ ·) := by
  induction h with
  | start =>
    have hmap : ∀ x : Except Fault (List Span), x.map ([] ++ ·) = x := by
      intro x
      cases x <;> rfl
    rw [List.map_nil, hmap, List.drop_zero, Nat.add_zero]
  | skip h hline hnone ih =>
    rw [ih, drop_eq_cons_of_getElem? hline, flatSpans_cons_of_none hnone, Nat.add_assoc]
  | @take m n found line o h hline hopen hreach ih =>
    rw [ih, drop_eq_cons_of_getElem? hline, flatSpans_cons_of_ok hopen hreach, List.drop_drop]
    have hnumber : number + m + n + 1 = number + (m + n + 1) := by omega
    have hdrop : m + 1 + n = m + n + 1 := by omega
    have hspan : (⟨⟨number + m, number + m + n⟩, o.kind⟩ : Span) =
        Span.shift number ⟨⟨m, m + n⟩, o.kind⟩ := by
      simp only [Span.shift, Nat.add_comm, Nat.add_left_comm]
    rw [hnumber, hdrop, hspan]
    cases flatSpans (number + (m + n + 1)) (lines.drop (m + n + 1)) with
    | error fault => rfl
    | ok spans => simp [Except.map]

/-- At the end of the lines, the result is what the pass has found. -/
lemma flatSpans_eq_ok (h : PassReaches lines lines.length found) (number : ℕ) :
    flatSpans number lines = .ok (found.map (Span.shift number)) := by
  rw [h.flatSpans_eq, List.drop_length, flatSpans_nil]
  exact congrArg Except.ok (List.append_nil _)

/-- From a position from which the pass succeeds, it comes to the end. -/
lemma exists_of_flatSpans_drop {number : ℕ} {spans : List Span} (h : PassReaches lines m found)
    (hspans : flatSpans (number + m) (lines.drop m) = .ok spans) :
    ∃ all, PassReaches lines lines.length all := by
  induction m using position_induction lines generalizing found spans with
  | past m hm =>
    obtain rfl : m = lines.length := h.le_length.antisymm hm
    exact ⟨found, h⟩
  | idle m hm hidle ih =>
    rw [flatSpans_drop_of_isIdle hm hidle] at hspans
    exact ih (h.skip_of_isIdle hm hidle) hspans
  | ended m c kind j hc hkind hj ih =>
    rw [flatSpans_drop_of_endsAt hc hkind hj, map_cons_eq_ok_iff] at hspans
    obtain ⟨rest, hrest, -⟩ := hspans
    exact ih (h.take_of_endsAt hc hkind hj) hrest
  | endless m c kind hc hkind hnone =>
    obtain ⟨construct, -, herror⟩ := flatSpans_drop_of_not_endsAt hc hkind hnone
    rw [herror] at hspans
    contradiction

end PassReaches

/-- The pass succeeds exactly if it comes to the end, with what it has found there. -/
theorem flatSpans_eq_ok_iff_passReaches {number : ℕ} {spans : List Span} :
    flatSpans number lines = .ok spans ↔
      ∃ found, PassReaches lines lines.length found ∧ spans = found.map (Span.shift number) := by
  constructor
  · intro h
    obtain ⟨found, hfound⟩ := PassReaches.start.exists_of_flatSpans_drop h
    exact ⟨found, hfound, Except.ok.inj (h.symm.trans (hfound.flatSpans_eq_ok number))⟩
  · rintro ⟨found, hfound, rfl⟩
    exact hfound.flatSpans_eq_ok number

/-! ### States with fewer and with more lines -/

/-- The last span that is found in lines, the first of which has the given number, is a run that
reaches up to their end and that the first of more lines goes on with. -/
def RunGoesOn (number : ℕ) (lines more : List String) (spans : List Span) : Prop :=
  ∃ s c, spans.getLast? = some s ∧ s.last + 1 = number + lines.length ∧ c.isRun = true ∧
    categoryAt lines (s.first - number) = some c ∧ categoryAt more 0 = some c

/-- It makes no difference whether the spans are those of positions or of line numbers. -/
lemma runGoesOn_map_shift {number : ℕ} :
    RunGoesOn number lines more (found.map (Span.shift number)) ↔
      RunGoesOn 0 lines more found := by
  unfold RunGoesOn
  rw [List.getLast?_map]
  cases found.getLast? with
  | none => simp
  | some s =>
    have hlast : s.last + number + 1 = number + lines.length ↔ s.last + 1 = 0 + lines.length := by
      omega
    simp [Span.shift, hlast]

namespace PassReaches

/-- What the pass has found before a position does not depend on the lines from there on. -/
theorem restrict (h : PassReaches lines m found) {k : ℕ} (hk : m ≤ k) :
    PassReaches (lines.take k) m found := by
  induction h using position_rec with
  | start => exact .start
  | idle m found h hm hidle ih =>
    refine (ih (by omega)).skip_of_isIdle ?_ ?_
    · rw [List.length_take]
      omega
    · rwa [IsIdle, categoryAt_take_of_lt hk]
  | ended m found c kind j h hc hkind hj ih =>
    have hle := hj.le
    have hc' : categoryAt (lines.take k) m = some c := by
      rwa [categoryAt_take_of_lt (by omega)]
    exact (ih (by omega)).take_of_endsAt hc' hkind (hj.take (by omega))

/-- A state that is reached with the first lines is reached with all of them, unless it got to the
end of the first lines with a run that goes on. -/
theorem append (h : PassReaches lines m found)
    (hend : m = lines.length → ¬ RunGoesOn 0 lines more found) :
    PassReaches (lines ++ more) m found := by
  have hat : ∀ k < lines.length, categoryAt (lines ++ more) k = categoryAt lines k := by
    intro k hk
    rw [categoryAt, categoryAt, List.getElem?_append_left hk]
  have hnext : categoryAt (lines ++ more) lines.length = categoryAt more 0 := by
    rw [categoryAt, categoryAt, List.getElem?_append_right le_rfl, Nat.sub_self]
  induction h using position_rec with
  | start => exact .start
  | idle m found h hm hidle ih =>
    refine (ih fun hlast => absurd hlast hm.ne).skip_of_isIdle ?_ ?_
    · rw [List.length_append]
      omega
    · rwa [IsIdle, hat m hm]
  | ended m found c kind j h hc hkind hj ih =>
    have hm : m < lines.length := lt_length_of_categoryAt hc
    have hend' : c.EndsAt (lines ++ more) m j := by
      have htake : c.EndsAt ((lines ++ more).take lines.length) m j := by
        rwa [List.take_left]
      refine htake.of_take (hj.lt_length hc) fun hrun hlast hgoes => ?_
      exact hend hlast ⟨_, c, List.getLast?_concat, hlast.trans (Nat.zero_add _).symm, hrun, hc,
        hnext ▸ hgoes⟩
    have hc' : categoryAt (lines ++ more) m = some c := (hat m hm).trans hc
    exact (ih fun hlast => absurd hlast hm.ne).take_of_endsAt hc' hkind hend'

/-- The pass comes to every position that is not inside a span that it has found. -/
lemma exists_of_not_inside (h : PassReaches lines m found) (hi : i ≤ m)
    (hout : ∀ s ∈ found, ¬ (s.first < i ∧ i ≤ s.last)) : ∃ before, PassReaches lines i before := by
  induction h using position_rec with
  | start =>
    obtain rfl : i = 0 := Nat.le_zero.mp hi
    exact ⟨[], .start⟩
  | idle m found h hm hidle ih =>
    rcases hi.eq_or_lt with rfl | hi
    · exact ⟨found, h.skip_of_isIdle hm hidle⟩
    · exact ih (Nat.le_of_lt_succ hi) hout
  | ended m found c kind j h hc hkind hj ih =>
    have hlast : ¬ (m < i ∧ i ≤ j) := hout ⟨⟨m, j⟩, kind⟩ (by simp)
    rcases hi.eq_or_lt with rfl | hi
    · exact ⟨_, h.take_of_endsAt hc hkind hj⟩
    · exact ih (by omega) fun s hs => hout s (List.mem_append_left _ hs)

end PassReaches

end PassReaches

end SectionLedger
