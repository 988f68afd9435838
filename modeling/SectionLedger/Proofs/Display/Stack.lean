import Mathlib
import SectionLedger.Decoration
import SectionLedger.Proofs.Ledger.Laminar

/-!
# The sections around a line

The sections of a laminar shelf that contain a line lie inside each other, so they can be put in a
row from the innermost to the outermost: a *stack* (`Shelf.IsStack`).  From one line to the next the
stack changes at its top only.  At most one section begins on a line, and it goes on top of the
sections that are open before the line (`Shelf.IsStack.push`); at most one ends there, and it is the
one on top (`Shelf.IsStack.exists_pop`).  So the height of the stack under a section that begins or
ends is the number of sections that contain it (`Shelf.IsStack.length_eq_depth_of_first`,
`Shelf.IsStack.length_eq_depth_of_last`).
-/

namespace SectionLedger

namespace Shelf

variable {shelf : Shelf} {s t : Section} {n : ℕ}

/-! ### Two sections of a laminar shelf -/

namespace Laminar

/-- Two sections are the same or compatible. -/
lemma eq_or_compatible (h : shelf.Laminar) (hs : s ∈ shelf) (ht : t ∈ shelf) :
    s = t ∨ Interval.Compatible s.toInterval t.toInterval := by
  have hsymm : Std.Symm fun s t : Section => Interval.Compatible s.toInterval t.toInterval :=
    ⟨fun _ _ hst => hst.symm⟩
  by_cases hst : s = t
  · exact .inl hst
  · exact .inr (h.compatible.forall hs ht hst)

/-- No section is on the shelf twice. -/
lemma nodup (h : shelf.Laminar) : shelf.Nodup :=
  h.compatible.imp fun {s t} hst (heq : s = t) => hst.1 (heq ▸ rfl)

/-- Sections that begin on the same line are the same. -/
lemma eq_of_first_eq (h : shelf.Laminar) (hs : s ∈ shelf) (ht : t ∈ shelf)
    (hfirst : s.first = t.first) : s = t :=
  (h.eq_or_compatible hs ht).resolve_right fun hst => hst.1 hfirst

/-- Sections that end on the same line are the same. -/
lemma eq_of_last_eq (h : shelf.Laminar) (hs : s ∈ shelf) (ht : t ∈ shelf)
    (hlast : s.last = t.last) : s = t :=
  (h.eq_or_compatible hs ht).resolve_right fun hst => hst.2.1 hlast

/-- How the ends of two sections can lie: they are those of one section, the sections are apart, or
one of them lies inside the other. -/
lemma ends_cases (h : shelf.Laminar) (hs : s ∈ shelf) (ht : t ∈ shelf) :
    (s.first = t.first ∧ s.last = t.last) ∨ (s.last < t.first ∨ t.last < s.first) ∨
      (s.first < t.first ∧ t.last < s.last) ∨ (t.first < s.first ∧ s.last < t.last) := by
  rcases h.eq_or_compatible hs ht with rfl | ⟨-, -, hst⟩
  · exact .inl ⟨rfl, rfl⟩
  · rw [Interval.Apart, Interval.strictlyContains_iff, Interval.strictlyContains_iff] at hst
    exact .inr hst

/-- A section lies inside another exactly when the other is open before its first line. -/
lemma strictlyContains_iff_of_first (h : shelf.Laminar) (hs : s ∈ shelf) (ht : t ∈ shelf) :
    t.strictlyContains s.toInterval = true ↔ t.first < s.first ∧ s.first ≤ t.last := by
  have hs' := h.nonempty s hs
  have hst := h.ends_cases hs ht
  rw [Interval.strictlyContains_iff]
  omega

/-- A section lies inside another exactly when the other is open after its last line. -/
lemma strictlyContains_iff_of_last (h : shelf.Laminar) (hs : s ∈ shelf) (ht : t ∈ shelf) :
    t.strictlyContains s.toInterval = true ↔ t.first ≤ s.last ∧ s.last < t.last := by
  have hs' := h.nonempty s hs
  have hst := h.ends_cases hs ht
  rw [Interval.strictlyContains_iff]
  omega

end Laminar

/-! ### Where sections begin and end -/

/-- The sections that begin on a line. -/
def beginning (n : ℕ) (shelf : Shelf) : List Section := shelf.filter fun s => s.first == n

/-- The sections that end on a line. -/
def ending (n : ℕ) (shelf : Shelf) : List Section := shelf.filter fun s => s.last == n

/-- How many sections lie around a section. -/
def depth (shelf : Shelf) (s : Section) : ℕ := shelf.countP fun t => t.strictlyContains s.toInterval

/-- The sections that begin on a line, by membership. -/
lemma mem_beginning : s ∈ shelf.beginning n ↔ s ∈ shelf ∧ s.first = n := by simp [beginning]

/-- The sections that end on a line, by membership. -/
lemma mem_ending : s ∈ shelf.ending n ↔ s ∈ shelf ∧ s.last = n := by simp [ending]

/-- A list of sections without repetition that are all the same has one member at most. -/
lemma eq_nil_or_singleton {ss : List Section} (hnodup : ss.Nodup)
    (h : ∀ s ∈ ss, ∀ t ∈ ss, s = t) : ss = [] ∨ ∃ s, ss = [s] := by
  match ss with
  | [] => exact .inl rfl
  | [s] => exact .inr ⟨s, rfl⟩
  | s :: t :: rest =>
    have hne : s ≠ t := fun hst => (List.nodup_cons.mp hnodup).1 (hst ▸ List.mem_cons_self)
    exact absurd (h s (by simp) t (by simp)) hne

/-- At most one section begins on a line. -/
lemma Laminar.beginning_eq (h : shelf.Laminar) (n : ℕ) :
    shelf.beginning n = [] ∨ ∃ s, shelf.beginning n = [s] := by
  refine eq_nil_or_singleton (h.nodup.filter _) fun s hs t ht => ?_
  obtain ⟨hs, hsn⟩ := mem_beginning.mp hs
  obtain ⟨ht, htn⟩ := mem_beginning.mp ht
  exact h.eq_of_first_eq hs ht (hsn.trans htn.symm)

/-- At most one section ends on a line. -/
lemma Laminar.ending_eq (h : shelf.Laminar) (n : ℕ) :
    shelf.ending n = [] ∨ ∃ s, shelf.ending n = [s] := by
  refine eq_nil_or_singleton (h.nodup.filter _) fun s hs t ht => ?_
  obtain ⟨hs, hsn⟩ := mem_ending.mp hs
  obtain ⟨ht, htn⟩ := mem_ending.mp ht
  exact h.eq_of_last_eq hs ht (hsn.trans htn.symm)

/-- Sections that are listed by a number of theirs are all listed, if their numbers are in the
range. -/
lemma perm_flatMap_filter {f : Section → ℕ} {first count : ℕ}
    (h : ∀ s ∈ shelf, first ≤ f s ∧ f s < first + count) :
    ((List.range' first count).flatMap fun n => shelf.filter fun s => f s == n).Perm shelf := by
  induction count generalizing first shelf with
  | zero =>
    have hnil : shelf = [] := List.eq_nil_iff_forall_not_mem.mpr fun s hs => by
      have hs' := h s hs
      omega
    rw [hnil]
    rfl
  | succ count ih =>
    -- what has the first number of the range comes first, and the rest is listed by the rest
    have hrest : ∀ s ∈ shelf.filter fun s => !(f s == first),
        first + 1 ≤ f s ∧ f s < first + 1 + count := by
      intro s hs
      obtain ⟨hmem, hne⟩ := List.mem_filter.mp hs
      have hs' := h s hmem
      have hne' : f s ≠ first := by simpa using hne
      omega
    have hlisted : ((List.range' (first + 1) count).flatMap fun n =>
          shelf.filter fun s => f s == n) =
        (List.range' (first + 1) count).flatMap fun n =>
          (shelf.filter fun s => !(f s == first)).filter fun s => f s == n := by
      refine List.flatMap_congr fun n hn => ?_
      have hn' : first < n := (List.mem_range'_1.mp hn).1
      rw [List.filter_filter]
      refine List.filter_congr fun s _ => ?_
      rw [Bool.eq_iff_iff]
      simp only [beq_iff_eq, Bool.and_eq_true, Bool.not_eq_true', beq_eq_false_iff_ne]
      omega
    rw [List.range'_succ, List.flatMap_cons, hlisted]
    exact ((ih hrest).append_left _).trans (List.filter_append_perm _ _)

section Listed

variable {count : ℕ}

/-- The sections of a shelf, listed by the lines that they begin on. -/
lemma Laminar.perm_flatMap_beginning (h : shelf.Laminar)
    (hwithin : ∀ s ∈ shelf, 1 ≤ s.first ∧ s.last ≤ count) :
    ((List.range' 1 count).flatMap shelf.beginning).Perm shelf :=
  perm_flatMap_filter fun s hs => by
    have hs' := hwithin s hs
    have hne := h.nonempty s hs
    omega

/-- The sections of a shelf, listed by the lines that they end on. -/
lemma Laminar.perm_flatMap_ending (h : shelf.Laminar)
    (hwithin : ∀ s ∈ shelf, 1 ≤ s.first ∧ s.last ≤ count) :
    ((List.range' 1 count).flatMap shelf.ending).Perm shelf :=
  perm_flatMap_filter fun s hs => by
    have hs' := hwithin s hs
    have hne := h.nonempty s hs
    omega

end Listed

/-! ### Stacks -/

/-- The sections of a shelf with some property, each inside the next one. -/
structure IsStack (shelf : Shelf) (p : Section → Prop) (stack : List Section) : Prop where
  mem_iff : ∀ s, s ∈ stack ↔ s ∈ shelf ∧ p s
  nested : stack.Pairwise fun s t => t.strictlyContains s.toInterval = true

/-- A section begins before a line and does not end before it. -/
def OpenBefore (n : ℕ) (s : Section) : Prop := s.first < n ∧ n ≤ s.last

/-- A section contains a line. -/
def Around (n : ℕ) (s : Section) : Prop := s.first ≤ n ∧ n ≤ s.last

namespace IsStack

variable {stack : List Section} {p : Section → Prop}

/-- Before the first line nothing is open. -/
lemma nil (h : ∀ s ∈ shelf, 1 ≤ s.first) : shelf.IsStack (OpenBefore 1) [] where
  mem_iff s := by
    simp only [List.not_mem_nil, false_iff, not_and]
    intro hs hopen
    exact absurd hopen.1 (Nat.not_lt.mpr (h s hs))
  nested := .nil

/-- After the last line nothing is open. -/
lemma eq_nil_of_last_le (hstack : shelf.IsStack (OpenBefore (n + 1)) stack)
    (h : ∀ s ∈ shelf, s.last ≤ n) : stack = [] := by
  refine List.eq_nil_iff_forall_not_mem.mpr fun s hs => ?_
  obtain ⟨hmem, hopen⟩ := (hstack.mem_iff s).mp hs
  have hs' := h s hmem
  rw [OpenBefore] at hopen
  omega

/-- A stack has no section twice. -/
lemma nodup (hstack : shelf.IsStack p stack) : stack.Nodup :=
  hstack.nested.imp fun {s t} hst heq => by
    rw [heq, Interval.strictlyContains_iff] at hst
    omega

/-- A stack holds its sections in another order than the shelf does. -/
lemma perm_filter [DecidablePred p] (hstack : shelf.IsStack p stack) (h : shelf.Laminar) :
    stack.Perm (shelf.filter (p ·)) :=
  (List.perm_ext_iff_of_nodup hstack.nodup (h.nodup.filter _)).mpr fun s => by
    rw [hstack.mem_iff, List.mem_filter, decide_eq_true_eq]

/-- A stack is as high as there are sections with its property. -/
lemma length_eq_countP (hstack : shelf.IsStack p stack) (h : shelf.Laminar) {q : Section → Bool}
    (hq : ∀ s ∈ shelf, p s ↔ q s = true) : stack.length = shelf.countP q := by
  classical
  rw [(hstack.perm_filter h).length_eq, List.countP_eq_length_filter]
  refine congrArg List.length (List.filter_congr fun s hs => ?_)
  rw [Bool.eq_iff_iff, decide_eq_true_eq, hq s hs]

/-- The stack under a section that begins is as high as there are sections around it. -/
lemma length_eq_depth_of_first (hstack : shelf.IsStack (OpenBefore n) stack) (h : shelf.Laminar)
    (hs : s ∈ shelf.beginning n) : stack.length = shelf.depth s := by
  obtain ⟨hmem, rfl⟩ := mem_beginning.mp hs
  exact hstack.length_eq_countP h fun t ht => (h.strictlyContains_iff_of_first hmem ht).symm

/-- The stack under a section that ends is as high as there are sections around it. -/
lemma length_eq_depth_of_last (hstack : shelf.IsStack (OpenBefore (n + 1)) stack)
    (h : shelf.Laminar) (hs : s ∈ shelf.ending n) : stack.length = shelf.depth s := by
  obtain ⟨hmem, rfl⟩ := mem_ending.mp hs
  refine hstack.length_eq_countP h fun t ht => ?_
  rw [h.strictlyContains_iff_of_last hmem ht, OpenBefore, Nat.lt_succ_iff, Nat.succ_le_iff]

/-- The stack of the sections around a line is as high as there are such sections. -/
lemma length_eq_reach (hstack : shelf.IsStack (Around n) stack) (h : shelf.Laminar) :
    stack.length = shelf.reach n :=
  hstack.length_eq_countP h fun _ _ => Interval.containsLine_iff.symm

/-- The section that begins on a line goes on top of the stack. -/
lemma push (hstack : shelf.IsStack (OpenBefore n) stack) (h : shelf.Laminar) :
    shelf.IsStack (Around n) (shelf.beginning n ++ stack) where
  mem_iff s := by
    rw [List.mem_append, mem_beginning, hstack.mem_iff, OpenBefore, Around, ← and_or_left]
    refine and_congr_right fun hs => ?_
    have hs' := h.nonempty s hs
    omega
  nested := by
    rcases h.beginning_eq n with hnone | ⟨s, hs⟩
    · rw [hnone]
      exact hstack.nested
    · rw [hs]
      have hbegins : s ∈ shelf.beginning n := hs ▸ List.mem_singleton_self s
      obtain ⟨hmem, rfl⟩ := mem_beginning.mp hbegins
      refine List.pairwise_cons.mpr ⟨fun t ht => ?_, hstack.nested⟩
      obtain ⟨ht, hopen⟩ := (hstack.mem_iff t).mp ht
      exact (h.strictlyContains_iff_of_first hmem ht).mpr hopen

/-- The section that ends on a line is on top of the stack. -/
lemma exists_pop (hstack : shelf.IsStack (Around n) stack) (h : shelf.Laminar) :
    ∃ rest, stack = shelf.ending n ++ rest ∧ shelf.IsStack (OpenBefore (n + 1)) rest := by
  rcases h.ending_eq n with hnone | ⟨s, hs⟩
  · refine ⟨stack, by rw [hnone, List.nil_append], fun t => ?_, hstack.nested⟩
    rw [hstack.mem_iff, Around, OpenBefore]
    refine and_congr_right fun ht => ?_
    have hne : t.last ≠ n := fun heq => by
      have hmem : t ∈ shelf.ending n := mem_ending.mpr ⟨ht, heq⟩
      rw [hnone] at hmem
      exact List.not_mem_nil hmem
    omega
  · have hends : s ∈ shelf.ending n := hs ▸ List.mem_singleton_self s
    obtain ⟨hmem, rfl⟩ := mem_ending.mp hends
    have hs' := h.nonempty s hmem
    have hin : s ∈ stack := (hstack.mem_iff s).mpr ⟨hmem, hs', le_rfl⟩
    obtain ⟨top, rest, rfl⟩ := List.exists_cons_of_ne_nil (List.ne_nil_of_mem hin)
    obtain ⟨htop, hrest⟩ := List.pairwise_cons.mp hstack.nested
    have heq : s = top := by
      -- a section inside the one that ends would have ended before
      rcases List.mem_cons.mp hin with heq | hin
      · exact heq
      · have hinside := htop s hin
        have haround := ((hstack.mem_iff top).mp List.mem_cons_self).2
        rw [Interval.strictlyContains_iff] at hinside
        rw [Around] at haround
        omega
    subst heq
    refine ⟨rest, by rw [hs]; rfl, fun t => ?_, hrest⟩
    have hmem_iff := hstack.mem_iff t
    have hnot : s ∉ rest := (List.nodup_cons.mp hstack.nodup).1
    rw [OpenBefore]
    constructor
    · intro ht
      obtain ⟨ht', haround⟩ := hmem_iff.mp (List.mem_cons_of_mem s ht)
      have hne : t.last ≠ s.last := fun heq =>
        hnot (h.eq_of_last_eq ht' hmem heq ▸ ht)
      rw [Around] at haround
      exact ⟨ht', by omega, by omega⟩
    · rintro ⟨ht', hfirst, hlast⟩
      have ht : t ∈ s :: rest := hmem_iff.mpr ⟨ht', by omega, by omega⟩
      refine (List.mem_cons.mp ht).resolve_left fun heq => ?_
      rw [heq] at hlast
      omega

end IsStack

end Shelf

end SectionLedger
