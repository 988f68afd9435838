import Mathlib
import SectionLedger.Proofs.Segmentation.Ending
import SectionLedger.Proofs.Segmentation.Flat

/-!
# The flat pass finds the segmentation

A *segmentation* of lines is a list of intervals of positions, said without a pass: each begins at a
line that begins a section, ends where that section ends, and every line outside them begins none
(`IsSegmentation`).

The flat pass decides this notion.  Its result, shifted back to positions, is a segmentation, and
the only one; it fails exactly when the lines before some position have a segmentation and the
section that begins at the position has no end (`IsUnterminatedAt`).  Both follow the position of
the pass (`position_induction`): a segmentation from a position on is peeled interval by interval
(`IsSegmentationFrom.iff_of_isIdle`, `IsSegmentationFrom.iff_of_kind?`) in the steps of the pass.
-/

namespace SectionLedger

/-- The line at a position begins no section: it has no category, or is a closer on its own. -/
def IsIdle (lines : List String) (i : ℕ) : Prop :=
  categoryAt lines i = none ∨ categoryAt lines i = some .ifClose ∨
    categoryAt lines i = some .blockCommentClose ∨ categoryAt lines i = some .asmFloorClose

/-- The intervals of positions, in increasing order, of the sections that begin at a position or
later. -/
structure IsSegmentationFrom (lines : List String) (start : ℕ) (cut : List Span) : Prop where
  start_le : ∀ s ∈ cut, start ≤ s.first
  /-- The intervals are disjoint and in increasing order. -/
  ordered : cut.Pairwise fun s t => s.last < t.first
  /-- The first line of an interval fixes its kind and its end. -/
  opens : ∀ s ∈ cut, ∃ c, categoryAt lines s.first = some c ∧ c.kind? = some s.kind ∧
    c.EndsAt lines s.first s.last
  /-- A line outside the intervals begins no section. -/
  skipped : ∀ i, start ≤ i → i < lines.length → (∀ s ∈ cut, ¬(s.first ≤ i ∧ i ≤ s.last)) →
    IsIdle lines i

/-- The intervals of positions, in increasing order, of the sections of all lines. -/
def IsSegmentation (lines : List String) (cut : List Span) : Prop := IsSegmentationFrom lines 0 cut

/-- The line at a position begins a construct, and the section that it begins has no end. -/
def IsUnterminatedAt (lines : List String) (i : ℕ) (construct : Construct) : Prop :=
  ∃ c, categoryAt lines i = some c ∧ c.construct? = some construct ∧ ∀ j, ¬ c.EndsAt lines i j

/-- The span with its lines counted from a higher number. -/
def Span.shift (k : ℕ) (s : Span) : Span := ⟨⟨s.first + k, s.last + k⟩, s.kind⟩

/-- Different spans stay different when they are shifted. -/
lemma Span.shift_injective (k : ℕ) : Function.Injective (Span.shift k) := by
  rintro ⟨⟨a, b⟩, kind⟩ ⟨⟨a', b'⟩, kind'⟩ h
  simpa [shift] using h

/-! ### What stands at a position -/

section Position

variable {lines : List String} {m : ℕ} {c : Category}

/-- A line begins no section if its category, if any, has no kind. -/
lemma isIdle_iff : IsIdle lines m ↔ ∀ c, categoryAt lines m = some c → c.kind? = none := by
  constructor
  · rintro (h | h | h | h) c hc <;> rw [h] at hc
    · contradiction
    all_goals obtain rfl := Option.some.inj hc; rfl
  · intro h
    cases hm : categoryAt lines m with
    | none => exact .inl hm
    | some c =>
      have hc := h c hm
      cases c <;> simp_all [IsIdle, Category.kind?]

/-- A line begins no section exactly if it opens nothing. -/
lemma isIdle_iff_opening? {line : String} (hline : Line.classify line = categoryAt lines m) :
    IsIdle lines m ↔ Line.opening? line = none := by
  rw [isIdle_iff, Line.opening?, hline, Option.bind_eq_none_iff]
  simp only [Category.kind?_eq_map, Option.map_eq_none_iff]

/-- A category with a construct has a kind. -/
lemma Category.exists_kind?_of_construct? {construct : Construct}
    (h : c.construct? = some construct) : ∃ kind, c.kind? = some kind := by
  cases c <;> simp_all [construct?, kind?]

/-- At a position a line begins no section, one with an end, or one without. -/
lemma isIdle_or_exists_endsAt (lines : List String) (m : ℕ) :
    IsIdle lines m ∨ ∃ c kind, categoryAt lines m = some c ∧ c.kind? = some kind ∧
      ((∃ j, c.EndsAt lines m j) ∨ ∀ j, ¬ c.EndsAt lines m j) := by
  by_cases h : IsIdle lines m
  · exact .inl h
  · rw [isIdle_iff] at h
    push Not at h
    obtain ⟨c, hc, hkind⟩ := h
    obtain ⟨kind, hkind⟩ := Option.ne_none_iff_exists'.mp hkind
    exact .inr ⟨c, kind, hc, hkind, (em _).imp_right not_exists.mp⟩

/-- The lines from a position on begin with the line there. -/
lemma exists_drop_eq_cons (hm : m < lines.length) :
    ∃ line, lines.drop m = line :: lines.drop (m + 1) ∧
      Line.classify line = categoryAt lines m := by
  refine ⟨lines[m], List.drop_eq_getElem_cons hm, ?_⟩
  rw [categoryAt, List.getElem?_eq_getElem hm, Option.bind_some]

/-- Induction along the pass.  A statement about positions holds at all of them if it holds past the
last line, at a line that begins no section when it holds at the next, at a section when it holds
behind its end, and at a section without an end. -/
@[elab_as_elim]
theorem position_induction (lines : List String) {motive : ℕ → Prop}
    (past : ∀ m, lines.length ≤ m → motive m)
    (idle : ∀ m, m < lines.length → IsIdle lines m → motive (m + 1) → motive m)
    (ended : ∀ m c kind j, categoryAt lines m = some c → c.kind? = some kind →
      c.EndsAt lines m j → motive (j + 1) → motive m)
    (endless : ∀ m c kind, categoryAt lines m = some c → c.kind? = some kind →
      (∀ j, ¬ c.EndsAt lines m j) → motive m)
    (m : ℕ) : motive m := by
  induction hn : lines.length - m using Nat.strong_induction_on generalizing m with
  | _ n ih =>
    subst hn
    rcases Nat.lt_or_ge m lines.length with hm | hm
    · rcases isIdle_or_exists_endsAt lines m with hidle | ⟨c, kind, hc, hkind, ⟨j, hj⟩ | hnone⟩
      · exact idle m hm hidle (ih _ (by omega) (m + 1) rfl)
      · -- the pass is past `m` behind the end, so fewer lines are left there
        have hle := hj.le
        exact ended m c kind j hc hkind hj (ih _ (by omega) (j + 1) rfl)
      · exact endless m c kind hc hkind hnone
    · exact past m hm

end Position

/-! ### The steps of the pass at a position -/

section Steps

variable {lines : List String} {m number : ℕ} {c : Category} {kind : Kind}

/-- The pass skips a line that begins no section. -/
lemma flatSpans_drop_of_isIdle (hm : m < lines.length) (h : IsIdle lines m) :
    flatSpans number (lines.drop m) = flatSpans (number + 1) (lines.drop (m + 1)) := by
  obtain ⟨line, hdrop, hline⟩ := exists_drop_eq_cons hm
  rw [hdrop, flatSpans_cons_of_none ((isIdle_iff_opening? hline).mp h)]

/-- A line with a kind opens a section of that kind, and the pass counts to the section's end. -/
lemma exists_opening (hc : categoryAt lines m = some c) (hkind : c.kind? = some kind) :
    ∃ line o, lines.drop m = line :: lines.drop (m + 1) ∧ Line.opening? line = some o ∧
      o.kind = kind ∧
      (∀ n, o.extent.reach line (lines.drop (m + 1)) = .ok n ↔ c.EndsAt lines m (m + n)) ∧
      ∀ construct, o.extent.reach line (lines.drop (m + 1)) = .error construct →
        c.construct? = some construct := by
  obtain ⟨line, hdrop, hline⟩ := exists_drop_eq_cons (lt_length_of_categoryAt hc)
  rw [hc] at hline
  rw [Category.kind?_eq_map] at hkind
  obtain ⟨o, ho, rfl⟩ := Option.map_eq_some_iff.mp hkind
  refine ⟨line, o, hdrop, ?_, rfl, fun n => ?_, fun construct h => ?_⟩
  · rw [Line.opening?, hline, Option.bind_some, ho]
  · rw [Extent.reach_eq_ok_iff hline ho, ← hdrop, Category.endsAt_drop, Nat.add_zero]
  · exact Extent.construct?_of_reach_eq_error ho h

/-- A section has at most one end. -/
lemma endsAt_unique {i j : ℕ} (hc : categoryAt lines m = some c) (hkind : c.kind? = some kind)
    (hi : c.EndsAt lines m i) (hj : c.EndsAt lines m j) : i = j := by
  obtain ⟨line, o, -, -, -, hreach, -⟩ := exists_opening hc hkind
  obtain ⟨a, rfl⟩ := Nat.exists_eq_add_of_le hi.le
  obtain ⟨b, rfl⟩ := Nat.exists_eq_add_of_le hj.le
  rw [← hreach] at hi hj
  obtain rfl : a = b := Except.ok.inj (hi.symm.trans hj)
  rfl

/-- The pass takes a section up to its end. -/
lemma flatSpans_drop_of_endsAt {j : ℕ} (hc : categoryAt lines m = some c)
    (hkind : c.kind? = some kind) (hj : c.EndsAt lines m j) :
    flatSpans (number + m) (lines.drop m) =
      (flatSpans (number + (j + 1)) (lines.drop (j + 1))).map
        (⟨⟨number + m, number + j⟩, kind⟩ :: ·) := by
  obtain ⟨line, o, hdrop, hopen, rfl, hreach, -⟩ := exists_opening hc hkind
  obtain ⟨n, rfl⟩ := Nat.exists_eq_add_of_le hj.le
  rw [hdrop, flatSpans_cons_of_ok hopen ((hreach n).mpr hj), List.drop_drop]
  simp only [Nat.add_assoc, Nat.add_comm, Nat.add_left_comm]

/-- The pass stops at a section without an end. -/
lemma flatSpans_drop_of_not_endsAt (hc : categoryAt lines m = some c) (hkind : c.kind? = some kind)
    (h : ∀ j, ¬ c.EndsAt lines m j) :
    ∃ construct, c.construct? = some construct ∧
      flatSpans number (lines.drop m) = .error (.unterminated construct number) := by
  obtain ⟨line, o, hdrop, hopen, -, hreach, hconstruct⟩ := exists_opening hc hkind
  cases hr : o.extent.reach line (lines.drop (m + 1)) with
  | error construct =>
    refine ⟨construct, hconstruct construct hr, ?_⟩
    rw [hdrop, flatSpans_cons_of_error hopen hr]
  | ok n => exact absurd ((hreach n).mp hr) (h _)

end Steps

/-! ### The steps of a segmentation at a position -/

namespace IsSegmentationFrom

variable {lines : List String} {m : ℕ} {cut : List Span}

/-- Past the last line there is nothing to cut. -/
lemma iff_nil_of_length_le (hm : lines.length ≤ m) :
    IsSegmentationFrom lines m cut ↔ cut = [] := by
  constructor
  · intro h
    refine List.eq_nil_iff_forall_not_mem.mpr fun s hs => ?_
    obtain ⟨c, hc, -, -⟩ := h.opens s hs
    have hlt := lt_length_of_categoryAt hc
    have hle := h.start_le s hs
    omega
  · rintro rfl
    refine ⟨by simp, .nil, by simp, fun i hi hlt => ?_⟩
    omega

/-- No interval begins at a line that begins no section. -/
lemma iff_of_isIdle (hidle : IsIdle lines m) :
    IsSegmentationFrom lines m cut ↔ IsSegmentationFrom lines (m + 1) cut := by
  constructor
  · intro h
    refine ⟨fun s hs => ?_, h.ordered, h.opens, fun i hi => h.skipped i (by omega)⟩
    obtain ⟨c, hc, hkind, -⟩ := h.opens s hs
    refine Nat.lt_of_le_of_ne (h.start_le s hs) fun heq => ?_
    rw [isIdle_iff.mp hidle c (heq ▸ hc)] at hkind
    contradiction
  · intro h
    refine ⟨fun s hs => (Nat.le_succ m).trans (h.start_le s hs), h.ordered, h.opens, ?_⟩
    intro i hi hlt hout
    rcases hi.eq_or_lt with rfl | hi
    · exact hidle
    · exact h.skipped i hi hlt hout

/-- An interval begins at every line that begins a section, and the others come after it. -/
lemma iff_of_kind? {c : Category} {kind : Kind} (hc : categoryAt lines m = some c)
    (hkind : c.kind? = some kind) :
    IsSegmentationFrom lines m cut ↔
      ∃ j rest, c.EndsAt lines m j ∧ cut = ⟨⟨m, j⟩, kind⟩ :: rest ∧
        IsSegmentationFrom lines (j + 1) rest := by
  constructor
  · intro h
    have hbusy : ¬ IsIdle lines m := fun hidle => by
      rw [isIdle_iff.mp hidle c hc] at hkind
      contradiction
    obtain ⟨s, hs, hsm⟩ : ∃ s ∈ cut, s.first ≤ m ∧ m ≤ s.last := by
      by_contra hout
      push Not at hout
      refine hbusy (h.skipped m le_rfl (lt_length_of_categoryAt hc) fun s hs hin => ?_)
      exact absurd hin.2 (Nat.not_le.mpr (hout s hs hin.1))
    cases cut with
    | nil => exact absurd hs List.not_mem_nil
    | cons t rest =>
      obtain ⟨hlt, hordered⟩ := List.pairwise_cons.mp h.ordered
      obtain ⟨c', hc', hkind', hend⟩ := h.opens t List.mem_cons_self
      -- the interval that covers the position is the first one, since it begins there
      have htm : t.first = m := by
        have ht := h.start_le t List.mem_cons_self
        rcases List.mem_cons.mp hs with rfl | hs
        · omega
        · have htl := hlt s hs
          have hle := hend.le
          omega
      obtain ⟨⟨first, j⟩, kind'⟩ := t
      simp only at htm hlt hc' hkind' hend
      subst htm
      obtain rfl : c' = c := Option.some.inj (hc'.symm.trans hc)
      obtain rfl : kind' = kind := Option.some.inj (hkind'.symm.trans hkind)
      refine ⟨j, rest, hend, rfl, fun s hs => hlt s hs, hordered,
        fun s hs => h.opens s (List.mem_cons_of_mem _ hs), fun i hi hil hout => ?_⟩
      have hle := hend.le
      refine h.skipped i (by omega) hil fun s hs => ?_
      rcases List.mem_cons.mp hs with rfl | hs
      · simp only
        omega
      · exact hout s hs
  · rintro ⟨j, rest, hend, rfl, h⟩
    have hle := hend.le
    refine ⟨fun s hs => ?_, List.pairwise_cons.mpr ⟨fun s hs => h.start_le s hs, h.ordered⟩,
      fun s hs => ?_, fun i hi hil hout => ?_⟩
    · rcases List.mem_cons.mp hs with rfl | hs
      · exact le_rfl
      · have hstart := h.start_le s hs
        omega
    · rcases List.mem_cons.mp hs with rfl | hs
      · exact ⟨c, hc, hkind, hend⟩
      · exact h.opens s hs
    · have hji : ¬ i ≤ j := fun hij => hout _ List.mem_cons_self ⟨hi, hij⟩
      exact h.skipped i (by omega) hil fun s hs => hout s (List.mem_cons_of_mem _ hs)

end IsSegmentationFrom

/-! ### The steps of a failure at a position -/

/-- The section that begins at position `i` has no end, and the lines before it have a segmentation
from a position on. -/
def IsUnterminatedFrom (lines : List String) (start i : ℕ) (construct : Construct) : Prop :=
  start ≤ i ∧ IsUnterminatedAt lines i construct ∧
    ∃ cut, IsSegmentationFrom (lines.take i) start cut

namespace IsUnterminatedFrom

variable {lines : List String} {m i j : ℕ} {construct : Construct} {c : Category} {kind : Kind}

/-- A section that ends before one without an end does so without the lines from there on. -/
lemma endsAt_of_take (hi : IsUnterminatedAt lines i construct)
    (hc : categoryAt (lines.take i) m = some c) (h : c.EndsAt (lines.take i) m j) :
    j < i ∧ c.EndsAt lines m j := by
  obtain ⟨c', hc', hconstruct, -⟩ := hi
  have hlt := h.lt_length hc
  rw [List.length_take, lt_min_iff] at hlt
  -- the line at `i` continues no run, since its section could have no end
  refine ⟨hlt.1, h.of_take hlt.1 fun hrun _ heq => ?_⟩
  obtain rfl : c = c' := Option.some.inj (heq.symm.trans hc')
  rw [Category.construct?_of_isRun hrun] at hconstruct
  contradiction

/-- A line that begins no section has no part in a failure. -/
lemma iff_of_isIdle (hidle : IsIdle lines m) :
    IsUnterminatedFrom lines m i construct ↔ IsUnterminatedFrom lines (m + 1) i construct := by
  have hstep : ∀ cut, m < i → (IsSegmentationFrom (lines.take i) m cut ↔
      IsSegmentationFrom (lines.take i) (m + 1) cut) := by
    intro cut hmi
    refine IsSegmentationFrom.iff_of_isIdle ?_
    simpa only [IsIdle, categoryAt_take_of_lt hmi] using hidle
  constructor
  · rintro ⟨hmi, hopen, cut, hcut⟩
    have hne : m ≠ i := by
      rintro rfl
      obtain ⟨c, hc, hconstruct, -⟩ := hopen
      obtain ⟨kind, hkind⟩ := Category.exists_kind?_of_construct? hconstruct
      rw [isIdle_iff.mp hidle c hc] at hkind
      contradiction
    have hlt : m < i := Nat.lt_of_le_of_ne hmi hne
    exact ⟨hlt, hopen, cut, (hstep cut hlt).mp hcut⟩
  · rintro ⟨hmi, hopen, cut, hcut⟩
    exact ⟨Nat.le_of_succ_le hmi, hopen, cut, (hstep cut hmi).mpr hcut⟩

/-- A section with an end has no part in a failure. -/
lemma iff_of_endsAt (hc : categoryAt lines m = some c) (hkind : c.kind? = some kind)
    (hj : c.EndsAt lines m j) :
    IsUnterminatedFrom lines m i construct ↔ IsUnterminatedFrom lines (j + 1) i construct := by
  have htake : m < i → categoryAt (lines.take i) m = some c := fun hmi => by
    rwa [categoryAt_take_of_lt hmi]
  constructor
  · rintro ⟨hmi, hopen, cut, hcut⟩
    have hne : m ≠ i := by
      rintro rfl
      obtain ⟨c', hc', -, hnone⟩ := hopen
      obtain rfl : c = c' := Option.some.inj (hc.symm.trans hc')
      exact hnone j hj
    have hc' := htake (Nat.lt_of_le_of_ne hmi hne)
    obtain ⟨j', rest, hj', -, hrest⟩ := (IsSegmentationFrom.iff_of_kind? hc' hkind).mp hcut
    obtain ⟨hlt, hend⟩ := endsAt_of_take hopen hc' hj'
    obtain rfl : j' = j := endsAt_unique hc hkind hend hj
    exact ⟨hlt, hopen, rest, hrest⟩
  · rintro ⟨hji, hopen, cut, hcut⟩
    have hle := hj.le
    have hc' := htake (by omega)
    exact ⟨by omega, hopen, _, (IsSegmentationFrom.iff_of_kind? hc' hkind).mpr
      ⟨j, cut, hj.take hji, rfl, hcut⟩⟩

/-- A section without an end is a failure of its own. -/
lemma iff_of_not_endsAt (hc : categoryAt lines m = some c) (hkind : c.kind? = some kind)
    (hnone : ∀ j, ¬ c.EndsAt lines m j) :
    IsUnterminatedFrom lines m i construct ↔ i = m ∧ c.construct? = some construct := by
  constructor
  · rintro ⟨hmi, hopen, cut, hcut⟩
    obtain rfl : m = i := by
      by_contra hne
      have hc' : categoryAt (lines.take i) m = some c := by
        rwa [categoryAt_take_of_lt (Nat.lt_of_le_of_ne hmi hne)]
      obtain ⟨j, -, hj, -⟩ := (IsSegmentationFrom.iff_of_kind? hc' hkind).mp hcut
      exact hnone j (endsAt_of_take hopen hc' hj).2
    obtain ⟨c', hc', hconstruct, -⟩ := hopen
    obtain rfl : c = c' := Option.some.inj (hc.symm.trans hc')
    exact ⟨rfl, hconstruct⟩
  · rintro ⟨rfl, hconstruct⟩
    refine ⟨le_rfl, ⟨c, hc, hconstruct, hnone⟩, [], ?_⟩
    rw [IsSegmentationFrom.iff_nil_of_length_le (List.length_take_le i lines)]

end IsUnterminatedFrom

/-! ### The pass and the segmentation step together -/

section Together

variable {number : ℕ} {lines : List String}

/-- A span in front of a result is in front of every success. -/
lemma map_cons_eq_ok_iff {x : Except Fault (List Span)} {s : Span} {spans : List Span} :
    x.map (s :: ·) = .ok spans ↔ ∃ rest, x = .ok rest ∧ spans = s :: rest := by
  cases x <;> simp [Except.map, eq_comm]

/-- A span in front of a result changes no failure. -/
lemma map_cons_eq_error_iff {x : Except Fault (List Span)} {s : Span} {fault : Fault} :
    x.map (s :: ·) = .error fault ↔ x = .error fault := by
  cases x <;> simp [Except.map]

/-- From any position, the pass succeeds with a segmentation from there, shifted. -/
lemma flatSpans_drop_eq_ok_iff (m : ℕ) {spans : List Span} :
    flatSpans (number + m) (lines.drop m) = .ok spans ↔
      ∃ cut, IsSegmentationFrom lines m cut ∧ spans = cut.map (Span.shift number) := by
  induction m using position_induction lines generalizing spans with
  | past m hm =>
    rw [List.drop_eq_nil_of_le hm, flatSpans_nil]
    simp only [IsSegmentationFrom.iff_nil_of_length_le hm, exists_eq_left, List.map_nil,
      Except.ok.injEq, eq_comm]
  | idle m hm hidle ih =>
    rw [flatSpans_drop_of_isIdle hm hidle, Nat.add_assoc, ih]
    simp only [IsSegmentationFrom.iff_of_isIdle hidle]
  | ended m c kind j hc hkind hj ih =>
    rw [flatSpans_drop_of_endsAt hc hkind hj, map_cons_eq_ok_iff]
    simp only [ih, IsSegmentationFrom.iff_of_kind? hc hkind]
    constructor
    · rintro ⟨_, ⟨cut, hcut, rfl⟩, rfl⟩
      refine ⟨_, ⟨j, cut, hj, rfl, hcut⟩, ?_⟩
      simp [Span.shift, Nat.add_comm]
    · rintro ⟨_, ⟨i, cut, hi, rfl, hcut⟩, rfl⟩
      obtain rfl : i = j := endsAt_unique hc hkind hi hj
      refine ⟨_, ⟨cut, hcut, rfl⟩, ?_⟩
      simp [Span.shift, Nat.add_comm]
  | endless m c kind hc hkind hnone =>
    obtain ⟨construct, -, herror⟩ := flatSpans_drop_of_not_endsAt hc hkind hnone
    rw [herror]
    simp only [reduceCtorEq, false_iff, not_exists, not_and]
    intro cut hcut
    obtain ⟨j, rest, hj, -⟩ := (IsSegmentationFrom.iff_of_kind? hc hkind).mp hcut
    exact absurd hj (hnone j)

/-- From any position, the pass fails exactly at the first section without an end. -/
lemma flatSpans_drop_eq_error_iff (m : ℕ) {fault : Fault} :
    flatSpans (number + m) (lines.drop m) = .error fault ↔
      ∃ i construct, IsUnterminatedFrom lines m i construct ∧
        fault = .unterminated construct (number + i) := by
  induction m using position_induction lines with
  | past m hm =>
    rw [List.drop_eq_nil_of_le hm, flatSpans_nil]
    simp only [reduceCtorEq, false_iff]
    rintro ⟨i, construct, ⟨hmi, ⟨c, hc, -⟩, -⟩, -⟩
    have hlt := lt_length_of_categoryAt hc
    omega
  | idle m hm hidle ih =>
    rw [flatSpans_drop_of_isIdle hm hidle, Nat.add_assoc, ih]
    simp only [IsUnterminatedFrom.iff_of_isIdle hidle]
  | ended m c kind j hc hkind hj ih =>
    rw [flatSpans_drop_of_endsAt hc hkind hj, map_cons_eq_error_iff, ih]
    simp only [IsUnterminatedFrom.iff_of_endsAt hc hkind hj]
  | endless m c kind hc hkind hnone =>
    obtain ⟨construct, hconstruct, herror⟩ := flatSpans_drop_of_not_endsAt hc hkind hnone
    rw [herror]
    simp only [IsUnterminatedFrom.iff_of_not_endsAt hc hkind hnone, hconstruct, Option.some.injEq]
    constructor
    · intro h
      exact ⟨m, construct, ⟨rfl, rfl⟩, (Except.error.inj h).symm⟩
    · rintro ⟨_, _, ⟨rfl, rfl⟩, rfl⟩
      rfl

end Together

/-! ### The segmentation of all lines -/

/-- **The flat pass decides the segmentation.**  Lines have at most one segmentation.  The pass
succeeds exactly with it, positions counted from the number of the first line, and fails exactly at
a position before which the lines have a segmentation and at which a section without an end
begins. -/
theorem flatSpans_finds_segmentation (offset : ℕ) (lines : List String) :
    (∀ cut cut', IsSegmentation lines cut → IsSegmentation lines cut' → cut = cut') ∧
    (∀ spans, flatSpans (offset + 1) lines = .ok spans ↔
      ∃ cut, IsSegmentation lines cut ∧ spans = cut.map (Span.shift (offset + 1))) ∧
    ∀ fault, flatSpans (offset + 1) lines = .error fault ↔
      ∃ i construct, fault = .unterminated construct (offset + i + 1) ∧
        (∃ cut, IsSegmentation (lines.take i) cut) ∧ IsUnterminatedAt lines i construct := by
  have hok : ∀ spans, flatSpans (offset + 1) lines = .ok spans ↔
      ∃ cut, IsSegmentation lines cut ∧ spans = cut.map (Span.shift (offset + 1)) :=
    fun spans => flatSpans_drop_eq_ok_iff 0
  refine ⟨fun cut cut' h h' => ?_, hok, fun fault => ?_⟩
  · have hcut := (hok _).mpr ⟨cut, h, rfl⟩
    have hcut' := (hok _).mpr ⟨cut', h', rfl⟩
    have hmap := Except.ok.inj (hcut.symm.trans hcut')
    exact List.map_injective_iff.mpr (Span.shift_injective _) hmap
  · refine (flatSpans_drop_eq_error_iff 0).trans ?_
    constructor
    · rintro ⟨i, construct, ⟨-, hopen, hcut⟩, rfl⟩
      exact ⟨i, construct, by rw [Nat.add_right_comm], hcut, hopen⟩
    · rintro ⟨i, construct, rfl, hcut, hopen⟩
      exact ⟨i, construct, ⟨i.zero_le, hopen, hcut⟩, by rw [Nat.add_right_comm]⟩

/-- A conditional block, a run and a procedure whose brackets balance on a later line are the one
segmentation of their lines; after a variable, a comment that never closes has none. -/
theorem segmentation_of_five_lines :
    (IsSegmentation ["#ifdef A", "#endif", "int x;", "void f()", "\x7b \x7d"]
        [⟨⟨0, 1⟩, Kind.directive⟩, ⟨⟨2, 2⟩, Kind.variableDecl⟩, ⟨⟨3, 4⟩, Kind.procedure⟩] ∧
      ∀ cut, IsSegmentation ["#ifdef A", "#endif", "int x;", "void f()", "\x7b \x7d"] cut →
        cut = [⟨⟨0, 1⟩, Kind.directive⟩, ⟨⟨2, 2⟩, Kind.variableDecl⟩, ⟨⟨3, 4⟩, Kind.procedure⟩]) ∧
    IsUnterminatedAt ["int x;", "/* a", "b"] 1 .blockComment := by
  constructor
  · have hpass : flatSpans 11 ["#ifdef A", "#endif", "int x;", "void f()", "\x7b \x7d"] =
        .ok [⟨⟨11, 12⟩, Kind.directive⟩, ⟨⟨13, 13⟩, Kind.variableDecl⟩,
          ⟨⟨14, 15⟩, Kind.procedure⟩] := by decide +kernel
    obtain ⟨cut, hcut, hmap⟩ := ((flatSpans_finds_segmentation 10 _).2.1 _).mp hpass
    have heq : [⟨⟨0, 1⟩, Kind.directive⟩, ⟨⟨2, 2⟩, Kind.variableDecl⟩,
        ⟨⟨3, 4⟩, Kind.procedure⟩] = cut :=
      List.map_injective_iff.mpr (Span.shift_injective 11) hmap
    subst heq
    exact ⟨hcut, fun cut' hcut' => (flatSpans_finds_segmentation 10 _).1 cut' _ hcut' hcut⟩
  · have hpass : flatSpans 11 ["int x;", "/* a", "b"] =
        .error (.unterminated .blockComment 12) := by decide +kernel
    obtain ⟨i, construct, hfault, -, hopen⟩ := ((flatSpans_finds_segmentation 10 _).2.2 _).mp hpass
    obtain ⟨rfl, hline⟩ := Fault.unterminated.inj hfault
    obtain rfl : 1 = i := by omega
    exact hopen

end SectionLedger
