import Mathlib
import SectionLedger.Proofs.Text.Fragments

/-!
# Occurrences from left to right

A delimiter may stand at many places of a text (`OccursAt`), also at places where it overlaps
itself.  Going from left to right, one takes the first place, then the first one behind the
delimiter that stands there, and so on.  `IsLeftToRight` says this without a search: the places are
apart, and every other place is overlapped by one of them from the left.  There is exactly one such
list (`IsLeftToRight.eq`, `exists_isLeftToRight`), and the fragments of the text are what stands in
front of its first place and what stands between each place and the next.

Text in which the delimiter does not begin only makes the first fragment behind it longer
(`fragments_append_of_not_occursAt`), so the fragments of a text can be read off from left to right.
-/

namespace SectionLedger.Text

/-- The delimiter stands at a place of the text. -/
def OccursAt (delimiter s : List Char) (k : ℕ) : Prop := delimiter <+: s.drop k

instance (delimiter s : List Char) (k : ℕ) : Decidable (OccursAt delimiter s k) :=
  inferInstanceAs (Decidable (delimiter <+: s.drop k))

section Occurrence

variable {delimiter a s : List Char} {k : ℕ}

/-- A delimiter that is not empty stands at no place behind the text. -/
lemma OccursAt.lt_length (hd : delimiter ≠ []) (h : OccursAt delimiter s k) : k < s.length := by
  have hlength := h.length_le
  have hpos := List.length_pos_iff.mpr hd
  rw [List.length_drop] at hlength
  omega

/-- Behind a text, the places are those of the rest. -/
lemma occursAt_append_right :
    OccursAt delimiter (a ++ s) (a.length + k) ↔ OccursAt delimiter s k := by
  rw [OccursAt, OccursAt, List.drop_length_add_append]

/-- A delimiter stands at some place exactly if the text holds it. -/
lemma exists_occursAt_iff : (∃ k, OccursAt delimiter s k) ↔ delimiter <:+: s := by
  constructor
  · rintro ⟨k, h⟩
    exact h.isInfix.trans (List.drop_suffix k s).isInfix
  · rintro ⟨before, behind, rfl⟩
    refine ⟨before.length, ?_⟩
    rw [OccursAt, List.append_assoc, List.drop_left]
    exact List.prefix_append _ _

/-! ### Fragments read off from left to right -/

/-- A text that begins with the delimiter has an empty fragment first. -/
lemma fragments_delimiter_append (hd : delimiter ≠ []) (s : List Char) :
    fragments delimiter (delimiter ++ s) = [] :: fragments delimiter s := by
  obtain ⟨c, rest, rfl⟩ := List.exists_cons_of_ne_nil hd
  have hprefix : (c :: rest).isPrefixOf (c :: (rest ++ s)) = true :=
    List.isPrefixOf_iff_prefix.mpr (List.prefix_append (c :: rest) s)
  apply fragments_of_cut?_eq_some hd
  rw [List.cons_append, cut?, if_pos hprefix]
  simp

/-- A character at which the delimiter does not begin makes the first fragment longer. -/
lemma fragments_cons_of_not_prefix (hd : delimiter ≠ []) {c : Char}
    (h : ¬ delimiter <+: c :: s) :
    fragments delimiter (c :: s) = (fragments delimiter s).modifyHead (c :: ·) := by
  have hcut : cut? delimiter (c :: s) =
      (cut? delimiter s).map fun parts => (c :: parts.1, parts.2) := by
    rw [cut?, if_neg (mt List.isPrefixOf_iff_prefix.mp h)]
  cases hs : cut? delimiter s with
  | none =>
    rw [hs] at hcut
    rw [fragments_of_cut?_eq_none hs, fragments_of_cut?_eq_none hcut]
    rfl
  | some parts =>
    rw [hs] at hcut
    rw [fragments_of_cut?_eq_some hd hs, fragments_of_cut?_eq_some hd hcut]
    rfl

/-- Text in which the delimiter does not begin makes the first fragment behind it longer. -/
theorem fragments_append_of_not_occursAt (hd : delimiter ≠ [])
    (h : ∀ k < a.length, ¬ OccursAt delimiter (a ++ s) k) :
    fragments delimiter (a ++ s) = (fragments delimiter s).modifyHead (a ++ ·) := by
  induction a with
  | nil => exact (congrFun List.modifyHead_id (fragments delimiter s)).symm
  | cons c a ih =>
    have hrest : ∀ k < a.length, ¬ OccursAt delimiter (a ++ s) k :=
      fun k hk => h (k + 1) (Nat.succ_lt_succ hk)
    have hfirst : ¬ delimiter <+: c :: (a ++ s) := h 0 (Nat.succ_pos _)
    rw [List.cons_append, fragments_cons_of_not_prefix hd hfirst, ih hrest,
      List.modifyHead_modifyHead]
    rfl

/-- A text without the delimiter is one fragment. -/
lemma fragments_of_not_isInfix (hd : delimiter ≠ []) (h : ¬ delimiter <:+: s) :
    fragments delimiter s = [s] := by
  have hnone : ∀ k < s.length, ¬ OccursAt delimiter (s ++ []) k := by
    intro k _ hk
    rw [List.append_nil] at hk
    exact h (exists_occursAt_iff.mp ⟨k, hk⟩)
  have hnil : cut? delimiter [] = none := by simp [cut?, hd]
  have happend := fragments_append_of_not_occursAt hd hnone
  rw [List.append_nil, fragments_of_cut?_eq_none hnil] at happend
  simpa using happend

/-! ### The first occurrence -/

/-- A text that is not cut holds no delimiter. -/
lemma not_occursAt_of_cut?_eq_none (hd : delimiter ≠ []) (h : cut? delimiter s = none) :
    ¬ OccursAt delimiter s k := by
  induction s generalizing k with
  | nil => exact fun hk => absurd (hk.lt_length hd) (Nat.not_lt_zero k)
  | cons c s ih =>
    rw [cut?] at h
    split at h
    · contradiction
    · next hnot =>
      cases k with
      | zero => exact mt List.isPrefixOf_iff_prefix.mpr hnot
      | succ k => exact ih (Option.map_eq_none_iff.mp h)

/-- The delimiter does not begin before the first place where a text is cut. -/
lemma not_occursAt_of_cut?_eq_some {before behind : List Char}
    (h : cut? delimiter s = some (before, behind)) (hk : k < before.length) :
    ¬ OccursAt delimiter s k := by
  induction s generalizing k before with
  | nil =>
    rw [cut?] at h
    split at h
    · obtain ⟨rfl, rfl⟩ := Prod.mk.inj (Option.some.inj h)
      contradiction
    · contradiction
  | cons c s ih =>
    rw [cut?] at h
    split at h
    · obtain ⟨rfl, rfl⟩ := Prod.mk.inj (Option.some.inj h)
      contradiction
    · next hnot =>
      obtain ⟨⟨before', behind'⟩, hcut, hparts⟩ := Option.map_eq_some_iff.mp h
      obtain ⟨rfl, rfl⟩ := Prod.mk.inj hparts
      cases k with
      | zero => exact mt List.isPrefixOf_iff_prefix.mpr hnot
      | succ k => exact ih hcut (Nat.lt_of_succ_lt_succ hk)

end Occurrence

/-! ### The places from left to right -/

/-- The places of a delimiter from left to right without overlap: the delimiter stands at each of
them, each is behind the delimiter at the one before, and wherever else the delimiter stands, one of
them is so close on the left that the two overlap. -/
structure IsLeftToRight (delimiter s : List Char) (places : List ℕ) : Prop where
  occursAt : ∀ p ∈ places, OccursAt delimiter s p
  apart : places.Pairwise fun p q => p + delimiter.length ≤ q
  overlapped : ∀ q, OccursAt delimiter s q → ∃ p ∈ places, p ≤ q ∧ q < p + delimiter.length

/-- What stands in front of the first place. -/
def leadAt (s : List Char) (places : List ℕ) : List Char := s.take (places.headD s.length)

/-- What stands between the delimiter at each place and the next place. -/
def piecesAt (delimiter s : List Char) : List ℕ → List (List Char)
  | [] => []
  | p :: places => (leadAt s places).drop (p + delimiter.length) :: piecesAt delimiter s places

/-- Each place has its piece. -/
@[simp] lemma length_piecesAt (delimiter s : List Char) (places : List ℕ) :
    (piecesAt delimiter s places).length = places.length := by
  induction places with
  | nil => rfl
  | cons p places ih => rw [piecesAt, List.length_cons, List.length_cons, ih]

section Places

variable {delimiter s : List Char} {places others : List ℕ}

/-- Places from left to right increase. -/
lemma IsLeftToRight.pairwise_lt (hd : delimiter ≠ []) (h : IsLeftToRight delimiter s places) :
    places.Pairwise (· < ·) := by
  have hpos := List.length_pos_iff.mpr hd
  exact h.apart.imp fun hpq => by omega

/-- Two of the places are apart, whichever comes first. -/
lemma IsLeftToRight.add_length_le (hd : delimiter ≠ []) (h : IsLeftToRight delimiter s places)
    {p q : ℕ} (hp : p ∈ places) (hq : q ∈ places) (hlt : p < q) : p + delimiter.length ≤ q := by
  have hpos := List.length_pos_iff.mpr hd
  have hapart : places.Pairwise fun p q =>
      p + delimiter.length ≤ q ∨ q + delimiter.length ≤ p := h.apart.imp .inl
  have hsymm : Std.Symm fun p q : ℕ => p + delimiter.length ≤ q ∨ q + delimiter.length ≤ p :=
    ⟨fun _ _ => Or.symm⟩
  have hpq := hapart.forall hp hq hlt.ne
  omega

/-- A place of one list from left to right is a place of any other, if they agree before it: else
it would be overlapped from the left by a place that both have. -/
lemma IsLeftToRight.mem_of_agree (hd : delimiter ≠ []) (h : IsLeftToRight delimiter s places)
    (h' : IsLeftToRight delimiter s others) {q : ℕ} (hagree : ∀ p < q, p ∈ others → p ∈ places)
    (hq : q ∈ places) : q ∈ others := by
  obtain ⟨p, hp, hle, hlt⟩ := h'.overlapped q (h.occursAt q hq)
  rcases Nat.eq_or_lt_of_le hle with rfl | hpq
  · exact hp
  · have hapart := h.add_length_le hd (hagree p hpq hp) hq hpq
    omega

/-- There is only one list of places from left to right. -/
theorem IsLeftToRight.eq (hd : delimiter ≠ []) (h : IsLeftToRight delimiter s places)
    (h' : IsLeftToRight delimiter s others) : others = places := by
  have hmem : ∀ q, q ∈ others ↔ q ∈ places := by
    intro q
    induction q using Nat.strong_induction_on with
    | _ q ih =>
      exact ⟨h'.mem_of_agree hd h fun p hp => (ih p hp).mpr,
        h.mem_of_agree hd h' fun p hp => (ih p hp).mp⟩
  exact (h'.pairwise_lt hd).eq_of_mem_iff (h.pairwise_lt hd) hmem

/-- In front of places that are moved behind a text stands that text first. -/
lemma leadAt_append (a s : List Char) (places : List ℕ) :
    leadAt (a ++ s) (places.map (a.length + ·)) = a ++ leadAt s places := by
  cases places with
  | nil => simp [leadAt]
  | cons p places => exact List.take_length_add_append p

/-- Places that are moved behind a text have the same pieces. -/
lemma piecesAt_append (delimiter a s : List Char) (places : List ℕ) :
    piecesAt delimiter (a ++ s) (places.map (a.length + ·)) = piecesAt delimiter s places := by
  induction places with
  | nil => rfl
  | cons p places ih =>
    rw [List.map_cons, piecesAt, piecesAt, ih, leadAt_append, Nat.add_assoc,
      List.drop_length_add_append]

/-- The places of a text are its first place and those of what stands behind the delimiter there. -/
lemma IsLeftToRight.first {before behind : List Char}
    (hfirst : ∀ q < before.length, ¬ OccursAt delimiter (before ++ delimiter ++ behind) q)
    (h : IsLeftToRight delimiter behind places) :
    IsLeftToRight delimiter (before ++ delimiter ++ behind)
      (before.length :: places.map ((before ++ delimiter).length + ·)) := by
  have hlength : (before ++ delimiter).length = before.length + delimiter.length :=
    List.length_append
  refine ⟨?_, ?_, ?_⟩
  · intro p hp
    rcases List.mem_cons.mp hp with rfl | hp
    · rw [OccursAt, List.append_assoc, List.drop_left]
      exact List.prefix_append _ _
    · obtain ⟨r, hr, rfl⟩ := List.mem_map.mp hp
      exact occursAt_append_right.mpr (h.occursAt r hr)
  · rw [List.pairwise_cons, List.pairwise_map]
    refine ⟨?_, h.apart.imp fun hpq => by omega⟩
    intro p hp
    obtain ⟨r, -, rfl⟩ := List.mem_map.mp hp
    omega
  · intro q hq
    have hge : before.length ≤ q := not_lt.mp fun hlt => hfirst q hlt hq
    by_cases hlt : q < before.length + delimiter.length
    · exact ⟨before.length, List.mem_cons_self, hge, hlt⟩
    · obtain ⟨r, rfl⟩ := Nat.exists_eq_add_of_le (not_lt.mp hlt)
      rw [← hlength, occursAt_append_right] at hq
      obtain ⟨p, hp, hle, hlt⟩ := h.overlapped r hq
      refine ⟨(before ++ delimiter).length + p, ?_, by omega, by omega⟩
      exact List.mem_cons_of_mem _ (List.mem_map_of_mem hp)

/-- **The fragments of a text stand between the places of the delimiter from left to right.** -/
theorem exists_isLeftToRight (hd : delimiter ≠ []) (s : List Char) :
    ∃ places, IsLeftToRight delimiter s places ∧
      fragments delimiter s = leadAt s places :: piecesAt delimiter s places := by
  induction hn : s.length using Nat.strong_induction_on generalizing s with
  | _ n ih =>
    cases hcut : cut? delimiter s with
    | none =>
      refine ⟨[], ⟨by simp, .nil, ?_⟩, ?_⟩
      · intro q hq
        exact absurd hq (not_occursAt_of_cut?_eq_none hd hcut)
      · rw [fragments_of_cut?_eq_none hcut, leadAt, List.headD_nil, List.take_length]
        rfl
    | some parts =>
      obtain ⟨before, behind⟩ := parts
      obtain ⟨places, hplaces, hfragments⟩ :=
        ih behind.length (hn ▸ length_lt_of_cut? hcut hd) behind rfl
      have hfirst : ∀ q < before.length, ¬ OccursAt delimiter s q :=
        fun q => not_occursAt_of_cut?_eq_some hcut
      rw [fragments_of_cut?_eq_some hd hcut, hfragments]
      obtain rfl := cut?_eq_some hcut
      refine ⟨_, hplaces.first hfirst, ?_⟩
      have hlead : leadAt (before ++ delimiter ++ behind)
          (before.length :: places.map ((before ++ delimiter).length + ·)) = before := by
        rw [leadAt, List.headD_cons, List.append_assoc, List.take_left]
      rw [hlead, piecesAt, leadAt_append, piecesAt_append, ← List.length_append, List.drop_left]

end Places

end SectionLedger.Text
