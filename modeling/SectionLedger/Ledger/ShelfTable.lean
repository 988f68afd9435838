import SectionLedger.Ledger.Shelf

/-!
# Shelf tables

A table of shelves is held by ascending file number and has only those that hold a section; a file
without a row has an empty shelf.  So two tables with the same shelves are equal (`ext_get`).
-/

namespace SectionLedger

/-- Shelves by ascending file number, none of them empty. -/
structure ShelfTable where
  rows : List (FileId × Shelf)
  ascending : rows.Pairwise fun a b => a.1 < b.1
  occupied : ∀ row ∈ rows, row.2 ≠ []

namespace ShelfTable

/-- The table without shelves. -/
def empty : ShelfTable := ⟨[], .nil, by simp⟩

/-- The shelf of a file among rows. -/
def lookup (file : FileId) : List (FileId × Shelf) → Shelf
  | [] => []
  | row :: rows => if row.1 = file then row.2 else lookup file rows

/-- The rows with a row for a file in front, if the shelf is not empty. -/
def place (file : FileId) (shelf : Shelf) (rows : List (FileId × Shelf)) : List (FileId × Shelf) :=
  if shelf = [] then rows else (file, shelf) :: rows

/-- The rows with the shelf of a file replaced. -/
def replace (file : FileId) (shelf : Shelf) : List (FileId × Shelf) → List (FileId × Shelf)
  | [] => place file shelf []
  | row :: rows =>
    if file < row.1 then place file shelf (row :: rows)
    else if file = row.1 then place file shelf rows
    else row :: replace file shelf rows

theorem mem_place {file : FileId} {shelf : Shelf} {rows : List (FileId × Shelf)}
    {row : FileId × Shelf} (h : row ∈ place file shelf rows) :
    (row.1 = file ∧ row.2 ≠ []) ∨ row ∈ rows := by
  unfold place at h
  split at h
  · exact .inr h
  · next hs =>
    rcases List.mem_cons.1 h with rfl | h
    · exact .inl ⟨rfl, hs⟩
    · exact .inr h

theorem mem_replace {file : FileId} {shelf : Shelf} {rows : List (FileId × Shelf)}
    {row : FileId × Shelf} (h : row ∈ replace file shelf rows) :
    (row.1 = file ∧ row.2 ≠ []) ∨ row ∈ rows := by
  induction rows with
  | nil => exact mem_place h
  | cons r rows ih =>
    unfold replace at h
    split at h
    · exact mem_place h
    · split at h
      · exact (mem_place h).imp_right (List.mem_cons_of_mem _)
      · rcases List.mem_cons.1 h with rfl | h
        · exact .inr (by simp)
        · exact (ih h).imp_right (List.mem_cons_of_mem _)

theorem place_pairwise {file : FileId} {shelf : Shelf} {rows : List (FileId × Shelf)}
    (h : rows.Pairwise fun a b => a.1 < b.1) (hlt : ∀ row ∈ rows, file < row.1) :
    (place file shelf rows).Pairwise fun a b => a.1 < b.1 := by
  unfold place
  split
  · exact h
  · exact List.pairwise_cons.2 ⟨hlt, h⟩

theorem replace_pairwise {file : FileId} {shelf : Shelf} {rows : List (FileId × Shelf)}
    (h : rows.Pairwise fun a b => a.1 < b.1) :
    (replace file shelf rows).Pairwise fun a b => a.1 < b.1 := by
  induction rows with
  | nil => exact place_pairwise .nil (by simp)
  | cons r rows ih =>
    obtain ⟨hr, htail⟩ := List.pairwise_cons.1 h
    unfold replace
    split
    · next hlt =>
      refine place_pairwise h fun row hrow => ?_
      rcases List.mem_cons.1 hrow with rfl | hrow
      · exact hlt
      · exact Nat.lt_trans hlt (hr row hrow)
    · split
      · next heq => exact place_pairwise htail fun row hrow => heq ▸ hr row hrow
      · next hlt hne =>
        refine List.pairwise_cons.2 ⟨fun row hrow => ?_, ih htail⟩
        rcases mem_replace hrow with ⟨he, _⟩ | hrow
        · exact he ▸ Nat.lt_of_le_of_ne (Nat.not_lt.1 hlt) (Ne.symm hne)
        · exact hr row hrow

/-- The shelf of a file. -/
def get (t : ShelfTable) (file : FileId) : Shelf := lookup file t.rows

/-- The table with the shelf of a file replaced. -/
def set (t : ShelfTable) (file : FileId) (shelf : Shelf) : ShelfTable where
  rows := replace file shelf t.rows
  ascending := replace_pairwise t.ascending
  occupied := fun row h => (mem_replace h).elim (·.2) (t.occupied row)

/-- The files with a section, in ascending order. -/
def files (t : ShelfTable) : List FileId := t.rows.map (·.1)

theorem lookup_eq_nil {file : FileId} {rows : List (FileId × Shelf)}
    (h : ∀ row ∈ rows, file ≠ row.1) : lookup file rows = [] := by
  induction rows with
  | nil => rfl
  | cons r rows ih =>
    rw [lookup, if_neg (Ne.symm (h r (by simp))), ih fun row hr => h row (by simp [hr])]

theorem lookup_place_self {file : FileId} {shelf : Shelf} {rows : List (FileId × Shelf)}
    (h : ∀ row ∈ rows, file ≠ row.1) : lookup file (place file shelf rows) = shelf := by
  unfold place
  split
  · next hs => rw [hs, lookup_eq_nil h]
  · simp [lookup]

theorem lookup_place_other {file other : FileId} {shelf : Shelf} {rows : List (FileId × Shelf)}
    (h : file ≠ other) : lookup other (place file shelf rows) = lookup other rows := by
  unfold place
  split
  · rfl
  · rw [lookup, if_neg h]

@[simp] theorem get_set_self (t : ShelfTable) (file : FileId) (shelf : Shelf) :
    (t.set file shelf).get file = shelf := by
  obtain ⟨rows, hasc, hocc⟩ := t
  simp only [get, set]
  clear hocc
  induction rows with
  | nil => exact lookup_place_self (by simp)
  | cons r rows ih =>
    obtain ⟨hr, htail⟩ := List.pairwise_cons.1 hasc
    unfold replace
    split
    · next hlt =>
      refine lookup_place_self fun row hrow => ?_
      rcases List.mem_cons.1 hrow with rfl | hrow
      · exact Nat.ne_of_lt hlt
      · exact Nat.ne_of_lt (Nat.lt_trans hlt (hr row hrow))
    · split
      · next heq => exact lookup_place_self fun row hrow => heq ▸ Nat.ne_of_lt (hr row hrow)
      · next hne => rw [lookup, if_neg (Ne.symm hne), ih htail]

@[simp] theorem get_set_other (t : ShelfTable) {file other : FileId} (h : file ≠ other)
    (shelf : Shelf) : (t.set file shelf).get other = t.get other := by
  obtain ⟨rows, hasc, hocc⟩ := t
  simp only [get, set]
  clear hocc
  induction rows with
  | nil => exact lookup_place_other h
  | cons r rows ih =>
    unfold replace
    split
    · exact lookup_place_other h
    · split
      · next heq =>
        rw [lookup_place_other h, lookup, if_neg (heq ▸ h)]
      · rw [lookup, lookup, ih (List.pairwise_cons.1 hasc).2]

/-- Two tables with the same shelves are equal. -/
theorem ext_get {a b : ShelfTable} (h : ∀ file, a.get file = b.get file) : a = b := by
  obtain ⟨as, ha, hao⟩ := a
  obtain ⟨bs, hb, hbo⟩ := b
  suffices as = bs by cases this; rfl
  simp only [get] at h
  induction as generalizing bs with
  | nil =>
    cases bs with
    | nil => rfl
    | cons r bs =>
      have := h r.1
      simp only [lookup, if_true] at this
      exact absurd this.symm (hbo r (by simp))
  | cons q as ih =>
    cases bs with
    | nil =>
      have := h q.1
      simp only [lookup, if_true] at this
      exact absurd this (hao q (by simp))
    | cons r bs =>
      obtain ⟨hq, ha⟩ := List.pairwise_cons.1 ha
      obtain ⟨hr, hb'⟩ := List.pairwise_cons.1 hb
      have below : ∀ {x : FileId} {rows : List (FileId × Shelf)},
          (∀ row ∈ rows, x < row.1) → lookup x rows = [] := fun hx =>
        lookup_eq_nil fun row hrow => Nat.ne_of_lt (hx row hrow)
      have hqr : q.1 = r.1 := by
        rcases Nat.lt_trichotomy q.1 r.1 with hlt | heq | hgt
        · have := h q.1
          rw [lookup, if_pos rfl, lookup, if_neg (Nat.ne_of_gt hlt),
            below fun row hrow => Nat.lt_trans hlt (hr row hrow)] at this
          exact absurd this (hao q (by simp))
        · exact heq
        · have := h r.1
          rw [lookup, if_neg (Nat.ne_of_gt hgt), lookup, if_pos rfl,
            below fun row hrow => Nat.lt_trans hgt (hq row hrow)] at this
          exact absurd this.symm (hbo r (by simp))
      have hs : q.2 = r.2 := by
        have := h q.1
        rwa [lookup, if_pos rfl, lookup, if_pos hqr.symm] at this
      have hrow : q = r := Prod.ext hqr hs
      subst hrow
      congr 1
      refine ih ha (fun row hrow => hao row (by simp [hrow])) bs hb'
        (fun row hrow => hbo row (by simp [hrow])) fun file => ?_
      by_cases hf : q.1 = file
      · subst hf
        rw [below hq, below hr]
      · have := h file
        rwa [lookup, if_neg hf, lookup, if_neg hf] at this

end ShelfTable

end SectionLedger
