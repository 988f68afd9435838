import Mathlib
import SectionLedger.Segmentation

/-!
# The order of the flat pass

One pass over the lines finds spans one after another: each begins after the one before has ended,
and none reaches past the last line.  `InOrder` collects these facts, and `flatSpans_inOrder` says
that they hold of every successful pass, whichever of the four extents ended a span.

The equations `flatSpans_cons_of_none`, `flatSpans_cons_of_error` and `flatSpans_cons_of_ok` say
what one step of the pass does; nothing after them unfolds the pass.
-/

namespace SectionLedger

/-! ### How far a section reaches -/

/-- Brackets that balance do so on one of the given lines. -/
lemma Line.lt_length_of_balance? {opening closing : Char} {depth : Int} {met : Bool}
    {lines : List String} {n : ℕ} (h : balance? opening closing depth met lines = some n) :
    n < lines.length := by
  induction lines generalizing depth met n with
  | nil => simp [balance?] at h
  | cons line lines ih =>
    simp only [balance?] at h
    split at h
    · obtain rfl : 0 = n := Option.some.inj h
      exact Nat.succ_pos _
    · obtain ⟨m, hm, rfl⟩ := Option.map_eq_some_iff.mp h
      have hlt := ih hm
      rw [List.length_cons]
      omega

/-- No section reaches past the last line. -/
lemma Extent.reach_le_length {extent : Extent} {first : String} {rest : List String} {n : ℕ}
    (h : extent.reach first rest = .ok n) : n ≤ rest.length := by
  cases extent with
  | single =>
    obtain rfl : 0 = n := Except.ok.inj h
    exact Nat.zero_le _
  | run category =>
    obtain rfl := Except.ok.inj h
    exact (List.takeWhile_prefix _).length_le
  | upTo closer construct =>
    simp only [reach] at h
    split at h
    · next m hm =>
      obtain rfl := Except.ok.inj h
      obtain ⟨hlt, -⟩ := List.findIdx?_eq_some_iff_getElem.mp hm
      exact hlt
    · contradiction
  | balanced opening closing construct =>
    simp only [reach] at h
    split at h
    · next m hm =>
      obtain rfl := Except.ok.inj h
      have hlt := Line.lt_length_of_balance? hm
      rw [List.length_cons] at hlt
      omega
    · contradiction

/-- The kind that a category opens is one of the built-in ones. -/
lemma Category.kind_mem_builtin {category : Category} {o : Opening}
    (h : category.opening? = some o) : o.kind ∈ Kind.builtin := by
  cases category <;> simp only [opening?, Option.some.injEq, reduceCtorEq] at h <;> subst h <;>
    decide

/-- The kind that a line opens is one of the built-in ones. -/
lemma Line.kind_mem_builtin {line : String} {o : Opening} (h : opening? line = some o) :
    o.kind ∈ Kind.builtin := by
  obtain ⟨category, -, hc⟩ := Option.bind_eq_some_iff.mp h
  exact Category.kind_mem_builtin hc

/-! ### The steps of the pass -/

section Steps

variable {number : ℕ} {line : String} {lines : List String} {o : Opening}

/-- Without lines there are no spans. -/
@[simp] theorem flatSpans_nil (number : ℕ) : flatSpans number [] = .ok [] := by
  rw [flatSpans]

/-- A line that opens nothing is skipped. -/
theorem flatSpans_cons_of_none (ho : Line.opening? line = none) :
    flatSpans number (line :: lines) = flatSpans (number + 1) lines := by
  rw [flatSpans, ho]

/-- A construct that never closes stops the pass at its first line. -/
theorem flatSpans_cons_of_error {construct : Construct} (ho : Line.opening? line = some o)
    (hr : o.extent.reach line lines = .error construct) :
    flatSpans number (line :: lines) = .error (.unterminated construct number) := by
  rw [flatSpans, ho]
  simp only [hr]

/-- A section takes its lines with it. -/
theorem flatSpans_cons_of_ok {n : ℕ} (ho : Line.opening? line = some o)
    (hr : o.extent.reach line lines = .ok n) :
    flatSpans number (line :: lines) =
      (flatSpans (number + n + 1) (lines.drop n)).map (⟨⟨number, number + n⟩, o.kind⟩ :: ·) := by
  rw [flatSpans, ho]
  simp only [hr]
  cases flatSpans (number + n + 1) (lines.drop n) <;> rfl

end Steps

/-- A pass that fails names an unterminated construct. -/
theorem exists_unterminated_of_flatSpans {number : ℕ} {lines : List String} {fault : Fault}
    (h : flatSpans number lines = .error fault) :
    ∃ construct line, fault = .unterminated construct line := by
  induction number, lines using flatSpans.induct with
  | case1 number => simp at h
  | case2 number line lines ho ih =>
    rw [flatSpans_cons_of_none ho] at h
    exact ih h
  | case3 number line lines o ho construct hr =>
    rw [flatSpans_cons_of_error ho hr] at h
    exact ⟨construct, number, (Except.error.inj h).symm⟩
  | case4 number line lines o ho n hr ih =>
    rw [flatSpans_cons_of_ok ho hr] at h
    cases hrest : flatSpans (number + n + 1) (lines.drop n) with
    | error f =>
      rw [hrest] at h
      exact ih (hrest.trans h)
    | ok spans => rw [hrest] at h; contradiction

/-! ### The order of the spans -/

/-- The spans lie among `count` lines, the first of which has the given number, have built-in kinds,
and each ends before the next begins. -/
structure InOrder (number count : ℕ) (spans : List Span) : Prop where
  within : ∀ s ∈ spans, number ≤ s.first ∧ s.first ≤ s.last ∧ s.last < number + count
  builtin : ∀ s ∈ spans, s.kind ∈ Kind.builtin
  ordered : spans.Pairwise fun a b => a.last < b.first

namespace InOrder

variable {number count : ℕ} {spans : List Span}

/-- No spans are in order among any lines. -/
lemma nil : InOrder number count [] where
  within := by simp
  builtin := by simp
  ordered := .nil

/-- Spans in order among the lines after some are in order among all of them. -/
lemma mono {number' count' : ℕ} (h : InOrder number' count' spans) (hn : number ≤ number')
    (hc : number' + count' ≤ number + count) : InOrder number count spans where
  within s hs := by
    obtain ⟨h1, h2, h3⟩ := h.within s hs
    omega
  builtin := h.builtin
  ordered := h.ordered

/-- A span in front of spans among the lines after it. -/
lemma cons {span : Span} (hfirst : number ≤ span.first) (hspan : span.first ≤ span.last)
    (hkind : span.kind ∈ Kind.builtin) (hlast : span.last < number + count)
    (h : InOrder (span.last + 1) (number + count - (span.last + 1)) spans) :
    InOrder number count (span :: spans) where
  within s hs := by
    rcases List.mem_cons.mp hs with rfl | hs
    · exact ⟨hfirst, hspan, hlast⟩
    · obtain ⟨h1, h2, h3⟩ := h.within s hs
      omega
  builtin s hs := by
    rcases List.mem_cons.mp hs with rfl | hs
    · exact hkind
    · exact h.builtin s hs
  ordered := List.pairwise_cons.mpr ⟨fun s hs => (h.within s hs).1, h.ordered⟩

/-- Two spans found in one pass are the same or apart. -/
lemma eq_or_apart (h : InOrder number count spans) {s t : Span} (hs : s ∈ spans) (ht : t ∈ spans) :
    s = t ∨ Interval.Apart s.toInterval t.toInterval := by
  have hsymm : Std.Symm fun a b : Span => Interval.Apart a.toInterval b.toInterval :=
    ⟨fun _ _ hab => hab.symm⟩
  have hapart : spans.Pairwise fun a b => Interval.Apart a.toInterval b.toInterval :=
    h.ordered.imp .inl
  by_cases hst : s = t
  · exact .inl hst
  · exact .inr (hapart.forall hs ht hst)

end InOrder

/-- A successful pass finds spans in order. -/
theorem flatSpans_inOrder {number : ℕ} {lines : List String} {spans : List Span}
    (h : flatSpans number lines = .ok spans) : InOrder number lines.length spans := by
  induction number, lines using flatSpans.induct generalizing spans with
  | case1 number =>
    rw [flatSpans_nil] at h
    obtain rfl := Except.ok.inj h
    exact InOrder.nil
  | case2 number line lines ho ih =>
    rw [flatSpans_cons_of_none ho] at h
    refine (ih h).mono (Nat.le_succ _) ?_
    rw [List.length_cons]
    omega
  | case3 number line lines o ho construct hr =>
    rw [flatSpans_cons_of_error ho hr] at h
    contradiction
  | case4 number line lines o ho n hr ih =>
    rw [flatSpans_cons_of_ok ho hr] at h
    cases hrest : flatSpans (number + n + 1) (lines.drop n) with
    | error f => rw [hrest] at h; contradiction
    | ok rest =>
      rw [hrest] at h
      obtain rfl : _ :: rest = spans := Except.ok.inj h
      have hn : n ≤ lines.length := Extent.reach_le_length hr
      refine InOrder.cons le_rfl (Nat.le_add_right _ _) (Line.kind_mem_builtin ho) ?_ ?_
      · simp only [List.length_cons]
        omega
      · refine (ih hrest).mono le_rfl ?_
        simp only [List.length_cons, List.length_drop]
        omega

end SectionLedger
