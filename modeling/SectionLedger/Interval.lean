/-!
# Line intervals

A section covers a closed interval of line numbers, counted from one.  The ledger keeps the
intervals of a file laminar: two of them are apart, or one lies strictly inside the other.
`Interval.clashesWith` is the test that the ledger makes, `Interval.Compatible` the relation that
it decides on nonempty intervals.
-/

namespace SectionLedger

/-- The lines from `first` to `last`, both included. -/
structure Interval where
  first : Nat
  last : Nat
  deriving DecidableEq, Repr

namespace Interval

/-- Whether a line lies in the interval. -/
def containsLine (i : Interval) (line : Nat) : Bool := i.first ≤ line && line ≤ i.last

/-- Whether another interval lies inside this one and shares neither end with it. -/
def strictlyContains (i j : Interval) : Bool := i.first < j.first && j.last < i.last

/-- Whether two intervals share an end, or overlap with neither inside the other. -/
def clashesWith (i j : Interval) : Bool :=
  (i.first < j.first && i.last < j.last && j.first ≤ i.last) ||
  (j.first < i.first && j.last < i.last && i.first ≤ j.last) ||
  i.first == j.first || i.last == j.last

/-- Two intervals are apart. -/
def Apart (i j : Interval) : Prop := i.last < j.first ∨ j.last < i.first

/-- Two intervals differ at both ends, and are apart or one lies strictly inside the other. -/
def Compatible (i j : Interval) : Prop :=
  i.first ≠ j.first ∧ i.last ≠ j.last ∧
    (Apart i j ∨ i.strictlyContains j = true ∨ j.strictlyContains i = true)

instance (i j : Interval) : Decidable (Apart i j) := inferInstanceAs (Decidable (_ ∨ _))

instance (i j : Interval) : Decidable (Compatible i j) := inferInstanceAs (Decidable (_ ∧ _))

theorem containsLine_iff {i : Interval} {line : Nat} :
    i.containsLine line = true ↔ i.first ≤ line ∧ line ≤ i.last := by
  simp [containsLine]

theorem strictlyContains_iff {i j : Interval} :
    i.strictlyContains j = true ↔ i.first < j.first ∧ j.last < i.last := by
  simp [strictlyContains]

/-- On nonempty intervals, the test of the ledger fails exactly for the compatible ones. -/
theorem clashesWith_eq_false_iff {i j : Interval} (hi : i.first ≤ i.last) (hj : j.first ≤ j.last) :
    i.clashesWith j = false ↔ Compatible i j := by
  simp only [clashesWith, Compatible, Apart, strictlyContains, Bool.or_eq_false_iff,
    Bool.and_eq_false_iff, decide_eq_false_iff_not, Bool.and_eq_true, decide_eq_true_eq,
    beq_eq_false_iff_ne]
  omega

end Interval

end SectionLedger
