import Mathlib
import SectionLedger.Proofs.Segmentation.Progress

/-!
# Cutting lines piece by piece

The flat pass looks ahead, but never past the span that it returns: what it finds in some lines it
finds in them whatever lines come after, and then goes on with those (`flatSpans_append`).  Only a
run looks at one line more, so the one exception is a run at the end that the next line goes on
with.

The other way round, lines can be cut apart at every line that is in no span
(`exists_flatSpans_take_drop`), and in front of every construct that never closes
(`exists_flatSpans_take_of_error`).
-/

namespace SectionLedger

section Composition

variable {number i : ℕ} {lines more : List String} {spans : List Span}

/-- What the pass finds in some lines it finds with more lines behind them, and then it finds what
is in those. -/
theorem flatSpans_append (h : flatSpans number lines = .ok spans)
    (hend : ¬ RunGoesOn number lines more spans) :
    flatSpans number (lines ++ more) =
      (flatSpans (number + lines.length) more).map (spans ++ ·) := by
  obtain ⟨found, hfound, rfl⟩ := flatSpans_eq_ok_iff_passReaches.mp h
  rw [runGoesOn_map_shift] at hend
  have hreaches : PassReaches (lines ++ more) lines.length found := hfound.append fun _ => hend
  rw [hreaches.flatSpans_eq number, List.drop_left]

/-- The pass skips a line that is in none of the spans that it finds from there on. -/
lemma flatSpans_drop_of_not_mem {m : ℕ} (h : flatSpans (number + m) (lines.drop m) = .ok spans)
    (hm : m < lines.length) (hout : ∀ s ∈ spans, ¬ (s.first ≤ number + m ∧ number + m ≤ s.last)) :
    flatSpans (number + (m + 1)) (lines.drop (m + 1)) = .ok spans := by
  rcases isIdle_or_exists_endsAt lines m with hidle | ⟨c, kind, hc, hkind, ⟨j, hj⟩ | hnone⟩
  · rwa [flatSpans_drop_of_isIdle hm hidle] at h
  · -- a section that begins at the line would be one of the spans
    rw [flatSpans_drop_of_endsAt hc hkind hj, map_cons_eq_ok_iff] at h
    obtain ⟨rest, -, rfl⟩ := h
    exact absurd ⟨le_rfl, Nat.add_le_add_left hj.le number⟩ (hout _ List.mem_cons_self)
  · obtain ⟨construct, -, herror⟩ := flatSpans_drop_of_not_endsAt hc hkind hnone
    rw [herror] at h
    contradiction

/-- Lines can be cut apart at a line that is in no span: the spans are those of the lines before it,
followed by those of the lines after it. -/
theorem exists_flatSpans_take_drop (h : flatSpans number lines = .ok spans)
    (hout : ∀ s ∈ spans, ¬ (s.first ≤ number + i ∧ number + i ≤ s.last)) :
    ∃ before after, flatSpans number (lines.take i) = .ok before ∧
      flatSpans (number + (i + 1)) (lines.drop (i + 1)) = .ok after ∧ before ++ after = spans := by
  rcases Nat.lt_or_ge i lines.length with hi | hi
  · obtain ⟨found, hfound, rfl⟩ := flatSpans_eq_ok_iff_passReaches.mp h
    have hinside : ∀ s ∈ found, ¬ (s.first < i ∧ i ≤ s.last) := by
      intro s hs hsi
      refine hout _ (List.mem_map_of_mem hs) ?_
      simp only [Span.shift]
      omega
    obtain ⟨before, hbefore⟩ := hfound.exists_of_not_inside hi.le hinside
    have hlength : (lines.take i).length = i := List.length_take_of_le hi.le
    have htake : PassReaches (lines.take i) (lines.take i).length before := by
      rw [hlength]
      exact hbefore.restrict le_rfl
    -- what the pass finds from the line on is the rest of the spans
    rw [hbefore.flatSpans_eq number] at h
    cases hrest : flatSpans (number + i) (lines.drop i) with
    | error fault =>
      rw [hrest] at h
      contradiction
    | ok after =>
      rw [hrest] at h
      have hspans := Except.ok.inj h
      refine ⟨_, after, htake.flatSpans_eq_ok number, flatSpans_drop_of_not_mem hrest hi ?_, hspans⟩
      intro s hs
      exact hout s (hspans ▸ List.mem_append_right _ hs)
  · refine ⟨spans, [], ?_, ?_, List.append_nil spans⟩
    · rwa [List.take_of_length_le hi]
    · rw [List.drop_eq_nil_of_le (by omega), flatSpans_nil]

/-- The lines in front of a construct that never closes can be cut. -/
theorem exists_flatSpans_take_of_error {construct : Construct}
    (h : flatSpans number lines = .error (.unterminated construct (number + i))) :
    ∃ before, flatSpans number (lines.take i) = .ok before := by
  have hstart : flatSpans (number + 0) (lines.drop 0) =
      .error (.unterminated construct (number + i)) := h
  obtain ⟨i', construct', ⟨-, -, cut, hcut⟩, hfault⟩ :=
    (flatSpans_drop_eq_error_iff 0).mp hstart
  obtain ⟨-, hline⟩ := Fault.unterminated.inj hfault
  obtain rfl : i = i' := Nat.add_left_cancel hline
  have hbefore : flatSpans (number + 0) ((lines.take i).drop 0) =
      .ok (cut.map (Span.shift number)) := (flatSpans_drop_eq_ok_iff 0).mpr ⟨cut, hcut, rfl⟩
  exact ⟨_, hbefore⟩

end Composition

/-- **The flat pass works piece by piece.**  Lines that can be cut give the same spans with more
lines behind them, followed by the spans of those or the fault in them, unless the last span is a
run up to the end and the next line goes on with it.  The spans of lines are those of the lines
before any line outside them followed by those of the lines after it; and the lines before a
construct that never closes can be cut. -/
theorem flatSpans_composes (offset : ℕ) (lines : List String) :
    (∀ more spans, flatSpans (offset + 1) lines = .ok spans →
      ¬ RunGoesOn (offset + 1) lines more spans →
      flatSpans (offset + 1) (lines ++ more) =
        (flatSpans (offset + lines.length + 1) more).map (spans ++ ·)) ∧
    (∀ spans i, flatSpans (offset + 1) lines = .ok spans →
      (∀ s ∈ spans, s.containsLine (offset + i + 1) = false) →
      ∃ before after, flatSpans (offset + 1) (lines.take i) = .ok before ∧
        flatSpans (offset + (i + 1) + 1) (lines.drop (i + 1)) = .ok after ∧
        before ++ after = spans) ∧
    ∀ construct i,
      flatSpans (offset + 1) lines = .error (.unterminated construct (offset + i + 1)) →
      ∃ before, flatSpans (offset + 1) (lines.take i) = .ok before := by
  refine ⟨fun more spans h hend => ?_, fun spans i h hout => ?_, fun construct i h => ?_⟩
  · rw [flatSpans_append h hend, Nat.add_right_comm]
  · have hout' : ∀ s ∈ spans, ¬ (s.first ≤ offset + 1 + i ∧ offset + 1 + i ≤ s.last) := by
      intro s hs hin
      have hline : s.containsLine (offset + i + 1) = true := by
        rw [Interval.containsLine_iff]
        omega
      rw [hout s hs] at hline
      contradiction
    obtain ⟨before, after, hbefore, hafter, hspans⟩ := exists_flatSpans_take_drop h hout'
    refine ⟨before, after, hbefore, ?_, hspans⟩
    rwa [Nat.add_right_comm] at hafter
  · rw [Nat.add_right_comm] at h
    exact exists_flatSpans_take_of_error h

/-- A conditional block at the end is no run, so a directive behind it is a span of its own.  The
lines of both can be cut apart at the empty line, and the line before a comment that never closes
can be cut. -/
theorem flatSpans_composes_of_directive_behind_block :
    let block := ["#ifdef A", "#endif"]
    let more := ["#define B", "", "int x;"]
    flatSpans 11 (block ++ more) = .ok [⟨⟨11, 12⟩, Kind.directive⟩, ⟨⟨13, 13⟩, Kind.directive⟩,
        ⟨⟨15, 15⟩, Kind.variableDecl⟩] ∧
      (∃ before after, flatSpans 11 ((block ++ more).take 3) = .ok before ∧
        flatSpans 15 ((block ++ more).drop 4) = .ok after ∧
        before ++ after = [⟨⟨11, 12⟩, Kind.directive⟩, ⟨⟨13, 13⟩, Kind.directive⟩,
          ⟨⟨15, 15⟩, Kind.variableDecl⟩]) ∧
      ∃ before, flatSpans 11 (["int x;", "/* a", "b"].take 1) = .ok before := by
  intro block more
  have hblock : flatSpans (10 + 1) block = .ok [⟨⟨11, 12⟩, Kind.directive⟩] := by decide +kernel
  have hmore : flatSpans (10 + block.length + 1) more =
      .ok [⟨⟨13, 13⟩, Kind.directive⟩, ⟨⟨15, 15⟩, Kind.variableDecl⟩] := by decide +kernel
  have hopens : categoryAt block 0 = some .ifOpen := by decide +kernel
  have hend : ¬ RunGoesOn (10 + 1) block more [⟨⟨11, 12⟩, Kind.directive⟩] := by
    rintro ⟨s, c, hs, -, hrun, hc, -⟩
    obtain rfl := Option.some.inj hs
    obtain rfl := Option.some.inj (hopens.symm.trans hc)
    contradiction
  have hwhole := (flatSpans_composes 10 block).1 more _ hblock hend
  rw [hmore] at hwhole
  have hopen : flatSpans (10 + 1) ["int x;", "/* a", "b"] =
      .error (.unterminated .blockComment (10 + 1 + 1)) := by decide +kernel
  refine ⟨hwhole, ?_, (flatSpans_composes 10 _).2.2 _ 1 hopen⟩
  exact (flatSpans_composes 10 (block ++ more)).2.1 _ 3 hwhole (by decide)

end SectionLedger
