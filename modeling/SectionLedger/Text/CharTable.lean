/-!
# Character tables

A class of characters is given by closed ranges of code points.  The tables of `Blank`, `Digit`
and `Word` are data of the Unicode standard; the program's own rules never list code points.
-/

namespace SectionLedger.Text

/-- A class of characters, as closed ranges of code points. -/
abbrev CharTable := List (Nat × Nat)

namespace CharTable

/-- Whether a character lies in one of the ranges. -/
def has (table : CharTable) (c : Char) : Bool :=
  table.any fun range => range.1 ≤ c.toNat && c.toNat ≤ range.2

theorem has_iff {table : CharTable} {c : Char} :
    table.has c = true ↔ ∃ range ∈ table, range.1 ≤ c.toNat ∧ c.toNat ≤ range.2 := by
  simp [has]

end CharTable

end SectionLedger.Text
