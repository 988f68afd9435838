import Mathlib
import SectionLedger.Proofs.Segmentation.Nested

/-!
# Empty lines at the end

An empty line has no category and no brackets, so it opens nothing, ends nothing and prolongs
nothing.  As the last line of a source it makes no difference to how the source is cut
(`nestedSpans_append_empty`): a section that is not finished before it is not finished by it either
(`Extent.reach_append_empty`), and the bodies of procedures end before it.
-/

namespace SectionLedger

/-- An empty line has no category. -/
lemma Line.classify_empty : classify "" = none := by decide +kernel

/-- An empty line opens nothing. -/
lemma Line.opening?_empty : opening? "" = none := by
  rw [opening?, classify_empty]
  rfl

/-- Brackets that are not balanced yet are not balanced by an empty line. -/
lemma Line.balance?_append_empty {opening closing : Char} {depth : Int} {met : Bool}
    {lines : List String} (h : ¬ (met = true ∧ depth ≤ 0)) :
    balance? opening closing depth met (lines ++ [""]) =
      balance? opening closing depth met lines := by
  induction lines generalizing depth met with
  | nil =>
    have hexcess : excess opening closing "" = 0 := by simp [excess]
    have hbracket : hasBracket opening closing "" = false := by simp [hasBracket]
    have hopen : ¬ ((met && decide (depth ≤ 0)) = true) := by simpa using h
    simp only [List.nil_append, balance?, hexcess, hbracket, Int.add_zero, Bool.or_false,
      if_neg hopen, Option.map_none]
  | cons line lines ih =>
    simp only [List.cons_append, balance?]
    split
    · rfl
    · next hopen =>
      rw [ih (by simpa using hopen)]

/-- A section reaches as far with an empty line at the end as it does without. -/
lemma Extent.reach_append_empty (extent : Extent) (first : String) (rest : List String) :
    extent.reach first (rest ++ [""]) = extent.reach first rest := by
  cases extent with
  | single => rfl
  | run category =>
    have hlast : ([""].takeWhile fun l => decide (Line.classify l = some category)) = [] := by
      simp [Line.classify_empty]
    simp only [reach, List.takeWhile_append, hlast, List.append_nil]
    split
    · next hall => rw [hall]
    · rfl
  | upTo closer construct =>
    have hlast : ([""].findIdx? fun l => decide (Line.classify l = some closer)) = none := by
      simp [Line.classify_empty]
    simp only [reach, List.findIdx?_append, hlast, Option.map_none, Option.or_none]
  | balanced opening closing construct =>
    have hopen : ¬ (false = true ∧ (0 : Int) ≤ 0) := fun h => Bool.false_ne_true h.1
    simp only [reach, ← List.cons_append, Line.balance?_append_empty hopen]

/-- One pass finds the same with an empty line at the end as without. -/
theorem flatSpans_append_empty (number : ℕ) (lines : List String) :
    flatSpans number (lines ++ [""]) = flatSpans number lines := by
  induction number, lines using flatSpans.induct with
  | case1 number =>
    rw [List.nil_append, flatSpans_cons_of_none Line.opening?_empty, flatSpans_nil, flatSpans_nil]
  | case2 number line lines ho ih =>
    rw [List.cons_append, flatSpans_cons_of_none ho, flatSpans_cons_of_none ho, ih]
  | case3 number line lines o ho construct hr =>
    have hr' : o.extent.reach line (lines ++ [""]) = .error construct := by
      rw [Extent.reach_append_empty, hr]
    rw [List.cons_append, flatSpans_cons_of_error ho hr', flatSpans_cons_of_error ho hr]
  | case4 number line lines o ho n hr ih =>
    have hr' : o.extent.reach line (lines ++ [""]) = .ok n := by
      rw [Extent.reach_append_empty, hr]
    have hdrop : (lines ++ [""]).drop n = lines.drop n ++ [""] :=
      List.drop_append_of_le_length (Extent.reach_le_length hr)
    rw [List.cons_append, flatSpans_cons_of_ok ho hr', flatSpans_cons_of_ok ho hr, hdrop, ih]

/-- The body of a span that ends among the lines has none of the lines after them. -/
lemma Span.body_append {s : Span} {offset : ℕ} {lines : List String} (more : List String)
    (h1 : offset + 1 ≤ s.first) (h2 : s.first < s.last) (h3 : s.last ≤ offset + lines.length) :
    s.body offset (lines ++ more) = s.body offset lines := by
  have hdrop : s.first - offset ≤ lines.length := by omega
  have htake : s.last - 1 - s.first ≤ (lines.drop (s.first - offset)).length := by
    rw [List.length_drop]
    omega
  rw [body, body, List.drop_append_of_le_length hdrop, List.take_append_of_le_length htake]

/-- **An empty line at the end makes no difference.**  The nested pass finds the same spans, or the
same construct that never closes, with an empty line at the end as without. -/
theorem nestedSpans_append_empty (depth offset : ℕ) (lines : List String) :
    nestedSpans depth offset (lines ++ [""]) = nestedSpans depth offset lines := by
  cases depth with
  | zero => exact flatSpans_append_empty (offset + 1) lines
  | succ depth =>
    rw [nestedSpans, nestedSpans, flatSpans_append_empty]
    cases hflat : flatSpans (offset + 1) lines with
    | error fault => rfl
    | ok flat =>
      have hbodies : ∀ s ∈ flat.filter Span.hasBody,
          nestedSpans depth s.first (s.body offset (lines ++ [""])) =
            nestedSpans depth s.first (s.body offset lines) := by
        intro s hs
        obtain ⟨hmem, hbody⟩ := List.mem_filter.mp hs
        obtain ⟨h1, h2, h3⟩ := (flatSpans_inOrder hflat).within s hmem
        have hne : s.first ≠ s.last := (Span.hasBody_iff.mp hbody).2
        rw [Span.body_append [""] h1 (by omega) (by omega)]
      simp only [bind, Except.bind, mapM_congr hbodies]

end SectionLedger
