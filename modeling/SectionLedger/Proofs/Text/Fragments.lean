import Mathlib
import SectionLedger.Text.Split

/-!
# Where a text is cut

Fragments are what a delimiter leaves of a text.  `IsCut` keeps the places: what stands before an
occurrence at which the text is cut, and what stands behind it.  The fragments after the first are
the texts between a cut and the next (`mem_tail_fragments_iff`), so each has its own occurrence of
the delimiter in front of it.  A text can be cut at one character in two goes
(`fragments_singleton_append`).
-/

namespace SectionLedger.Text

/-- The text up to the first occurrence of a delimiter, or all of it. -/
def front (delimiter s : List Char) : List Char := ((cut? delimiter s).map Prod.fst).getD s

/-- A text is cut at an occurrence of a delimiter: what is before it, and what is behind. -/
inductive IsCut (delimiter : List Char) : (s before behind : List Char) → Prop where
  /-- The first occurrence. -/
  | first {s before behind : List Char} (h : cut? delimiter s = some (before, behind)) :
      IsCut delimiter s before behind
  /-- An occurrence where the text behind the first one is cut. -/
  | later {s passed rest before behind : List Char} (h : cut? delimiter s = some (passed, rest))
      (hlater : IsCut delimiter rest before behind) :
      IsCut delimiter s (passed ++ delimiter ++ before) behind

section Cut

variable {delimiter s before behind : List Char}

/-- A text without an occurrence is one fragment. -/
lemma fragments_of_cut?_eq_none (h : cut? delimiter s = none) : fragments delimiter s = [s] := by
  rw [fragments]
  split
  · rfl
  · next heq =>
    rw [h] at heq
    contradiction

/-- The first fragment ends at the first occurrence, and the others are those of the rest. -/
lemma fragments_of_cut?_eq_some (hd : delimiter ≠ [])
    (h : cut? delimiter s = some (before, behind)) :
    fragments delimiter s = before :: fragments delimiter behind := by
  rw [fragments]
  split
  · next heq =>
    rw [h] at heq
    contradiction
  · next heq =>
    rw [h] at heq
    obtain ⟨rfl, rfl⟩ := Prod.mk.inj (Option.some.inj heq)
    rw [dif_neg hd]

/-- The delimiter stands where a text is cut. -/
lemma IsCut.eq_append (h : IsCut delimiter s before behind) :
    s = before ++ delimiter ++ behind := by
  induction h with
  | first h => exact cut?_eq_some h
  | later h hlater ih =>
    rw [cut?_eq_some h]
    nth_rewrite 1 [ih]
    simp only [List.append_assoc]

/-- A text is some fragment first, up to the first occurrence. -/
lemma fragments_eq_front_cons (hd : delimiter ≠ []) (s : List Char) :
    fragments delimiter s = front delimiter s :: (fragments delimiter s).tail := by
  unfold front
  cases h : cut? delimiter s with
  | none =>
    rw [fragments_of_cut?_eq_none h]
    rfl
  | some parts =>
    rw [fragments_of_cut?_eq_some hd h]
    rfl

/-- The fragments after the first are those that begin at a cut. -/
theorem mem_tail_fragments_iff (hd : delimiter ≠ []) {fragment : List Char} :
    fragment ∈ (fragments delimiter s).tail ↔
      ∃ before behind, IsCut delimiter s before behind ∧ fragment = front delimiter behind := by
  induction hn : s.length using Nat.strong_induction_on generalizing s with
  | _ n ih =>
    cases h : cut? delimiter s with
    | none =>
      rw [fragments_of_cut?_eq_none h]
      constructor
      · intro hmem
        exact absurd hmem List.not_mem_nil
      · rintro ⟨before, behind, hcut, -⟩
        cases hcut with
        | first hfirst => rw [h] at hfirst; contradiction
        | later hfirst hlater => rw [h] at hfirst; contradiction
    | some parts =>
      obtain ⟨passed, rest⟩ := parts
      have hshorter : rest.length < n := hn ▸ length_lt_of_cut? h hd
      have hrest := ih rest.length hshorter (s := rest) rfl
      rw [fragments_of_cut?_eq_some hd h, List.tail_cons, fragments_eq_front_cons hd rest,
        List.mem_cons, hrest]
      constructor
      · rintro (rfl | ⟨before, behind, hcut, rfl⟩)
        · exact ⟨passed, rest, .first h, rfl⟩
        · exact ⟨_, behind, .later h hcut, rfl⟩
      · rintro ⟨before, behind, hcut, rfl⟩
        cases hcut with
        | first hfirst =>
          rw [h] at hfirst
          obtain ⟨rfl, rfl⟩ := Prod.mk.inj (Option.some.inj hfirst)
          exact .inl rfl
        | later hfirst hlater =>
          rw [h] at hfirst
          obtain ⟨rfl, rfl⟩ := Prod.mk.inj (Option.some.inj hfirst)
          exact .inr ⟨_, behind, hlater, rfl⟩

/-- What stands before the first occurrence begins the text. -/
lemma front_prefix (delimiter s : List Char) : front delimiter s <+: s := by
  unfold front
  cases h : cut? delimiter s with
  | none => exact List.prefix_rfl
  | some parts =>
    obtain ⟨passed, rest⟩ := parts
    refine ⟨delimiter ++ rest, ?_⟩
    rw [← List.append_assoc]
    exact (cut?_eq_some h).symm

end Cut

/-! ### Cuts at one character -/

section Mark

variable {mark : Char} {a : List Char}

/-- A text without a character is not cut at it. -/
lemma cut?_singleton_of_notMem (ha : mark ∉ a) : cut? [mark] a = none := by
  cases h : cut? [mark] a with
  | none => rfl
  | some parts =>
    refine absurd ?_ ha
    rw [cut?_eq_some h]
    simp

/-- A text is cut at the first occurrence of a character. -/
lemma cut?_singleton_append (ha : mark ∉ a) (b : List Char) :
    cut? [mark] (a ++ mark :: b) = some (a, b) := by
  induction a with
  | nil => simp [cut?]
  | cons c a ih =>
    obtain ⟨hc, ha⟩ := not_or.mp (fun h => ha (List.mem_cons.mpr h))
    simp [cut?, hc, ih ha]

/-- The fragments of a text in front of a character come first. -/
theorem fragments_singleton_append (a b : List Char) :
    fragments [mark] (a ++ mark :: b) = fragments [mark] a ++ fragments [mark] b := by
  have hmark : [mark] ≠ [] := List.cons_ne_nil _ _
  induction hn : a.length using Nat.strong_induction_on generalizing a with
  | _ n ih =>
    by_cases ha : mark ∈ a
    · obtain ⟨first, rest, rfl, hfirst⟩ := List.eq_append_cons_of_mem ha
      have hshorter : rest.length < n := by
        rw [← hn, List.length_append, List.length_cons]
        omega
      have hrest := ih rest.length hshorter rest rfl
      rw [List.append_assoc, List.cons_append,
        fragments_of_cut?_eq_some hmark (cut?_singleton_append hfirst _),
        fragments_of_cut?_eq_some hmark (cut?_singleton_append hfirst _), hrest, List.cons_append]
    · rw [fragments_of_cut?_eq_some hmark (cut?_singleton_append ha _),
        fragments_of_cut?_eq_none (cut?_singleton_of_notMem ha), List.singleton_append]

end Mark

end SectionLedger.Text
