/-!
# Section kinds

A kind is a name.  Five are built in; a registry holds the names that a ledger accepts, and an
administrator may add to it.  The names of a registry are kept sorted by code point, each once.
-/

namespace SectionLedger

/-- The name of a sort of section. -/
abbrev Kind := String

namespace Kind

/-- Preprocessor lines. -/
def directive : Kind := "directive"

/-- Variable declarations. -/
def variableDecl : Kind := "variable"

/-- Procedures, the only kind whose body is cut again. -/
def procedure : Kind := "procedure"

/-- Comments. -/
def comment : Kind := "comment"

/-- Inline assembly. -/
def assembly : Kind := "assembly"

/-- The kinds that every new registry accepts. -/
def builtin : List Kind := [directive, variableDecl, procedure, comment, assembly]

end Kind

/-- The names put in order into a sorted list of names, unless it is there. -/
def insertName (name : String) : List String → List String
  | [] => [name]
  | n :: names =>
    if name < n then name :: n :: names
    else if name = n then n :: names
    else n :: insertName name names

theorem mem_insertName {name other : String} {names : List String} :
    other ∈ insertName name names ↔ other = name ∨ other ∈ names := by
  induction names with
  | nil => simp [insertName]
  | cons n names ih =>
    unfold insertName
    split
    · simp
    · split
      · next h => simp [h]
      · simp only [List.mem_cons, ih]
        constructor
        · rintro (h | h | h) <;> simp [h]
        · rintro (h | h | h) <;> simp [h]

theorem insertName_pairwise {name : String} {names : List String}
    (h : names.Pairwise (· < ·)) : (insertName name names).Pairwise (· < ·) := by
  induction names with
  | nil => simp [insertName]
  | cons n names ih =>
    obtain ⟨hn, htail⟩ := List.pairwise_cons.1 h
    unfold insertName
    split
    · next hlt =>
      refine List.pairwise_cons.2 ⟨fun m hm => ?_, h⟩
      rcases List.mem_cons.1 hm with rfl | hm
      · exact hlt
      · exact String.lt_trans hlt (hn m hm)
    · split
      · exact h
      · next hlt hne =>
        refine List.pairwise_cons.2 ⟨fun m hm => ?_, ih htail⟩
        rcases mem_insertName.1 hm with rfl | hm
        · rcases String.le_total m n with hle | hle
          · exact absurd (String.le_antisymm hle (String.not_lt.1 hlt)) hne
          · exact String.not_le.1 fun hmn => hne (String.le_antisymm hmn hle)
        · exact hn m hm

/-- The kind names that a ledger accepts. -/
structure Registry where
  names : List String
  sorted : names.Pairwise (· < ·)

namespace Registry

theorem ext {a b : Registry} (h : a.names = b.names) : a = b := by
  cases a; cases b; cases h; rfl

instance : DecidableEq Registry := fun a b =>
  decidable_of_iff (a.names = b.names) ⟨ext, fun h => h ▸ rfl⟩

instance : Repr Registry := ⟨fun r n => reprPrec r.names n⟩

/-- A registry without names. -/
def empty : Registry := ⟨[], .nil⟩

/-- The registry that accepts one more name. -/
def register (r : Registry) (name : String) : Registry :=
  ⟨insertName name r.names, insertName_pairwise r.sorted⟩

/-- The registry of the names of a list. -/
def ofList (names : List String) : Registry := names.foldl register empty

/-- The registry of the built-in kinds. -/
def builtin : Registry := ofList Kind.builtin

/-- Whether a name is accepted. -/
def contains (r : Registry) (name : String) : Bool := r.names.contains name

@[simp] theorem contains_register {r : Registry} {name other : String} :
    (r.register name).contains other = (other == name || r.contains other) := by
  simp only [contains, register, List.contains_eq_mem, mem_insertName]
  rw [Bool.eq_iff_iff]
  simp

theorem register_names (r : Registry) (name : String) :
    (r.register name).names = insertName name r.names := rfl

end Registry

end SectionLedger
