import Mathlib
import SectionLedger.Ledger.Saved
import SectionLedger.Proofs.Json.Record

/-!
# A saved ledger is loaded as it was

The registry and the table of shelves are written in the order in which they are kept, so reading
puts each name and each row at the end of what has been read (`insertName_of_forall_lt`,
`replace_of_forall_lt`), and both come out as they went in.  The one condition is that the numbers
fit a machine word (`Ledger.FitsWords`); the texts may be any, for whatever a text holds is escaped
when it is written.
-/

namespace SectionLedger

open Json

/-! ### The registry -/

/-- A name after all others is put at the end. -/
lemma insertName_of_forall_lt {name : String} {names : List String} (h : ∀ n ∈ names, n < name) :
    insertName name names = names ++ [name] := by
  induction names with
  | nil => rfl
  | cons n names ih =>
    obtain ⟨hn, hnames⟩ := List.forall_mem_cons.mp h
    have hlt : ¬ name < n := String.lt_asymm hn
    have hne : name ≠ n := by
      rintro rfl
      exact hlt hn
    rw [insertName, if_neg hlt, if_neg hne, ih hnames, List.cons_append]

namespace Registry

/-- Names in order are the names of their registry. -/
lemma names_ofList {names : List String} (h : names.Pairwise (· < ·)) :
    (ofList names).names = names := by
  induction names using List.reverseRecOn with
  | nil => rfl
  | append_singleton names name ih =>
    obtain ⟨hnames, -, hname⟩ := List.pairwise_append.mp h
    have hlast : ∀ n ∈ (ofList names).names, n < name := by
      intro n hn
      rw [ih hnames] at hn
      exact hname n hn name List.mem_cons_self
    have hconcat : ofList (names ++ [name]) = (ofList names).register name := List.foldl_concat ..
    rw [hconcat, register_names, insertName_of_forall_lt hlast, ih hnames]

/-- A registry reads back. -/
lemma readsBack (r : Registry) : ReadsBack toJson ofJson? r := by
  have hnames : ReadsBack (Value.ofList .text) (Value.asList? Value.asText?) r.names :=
    .ofList fun name _ => readsBack_text name
  refine .of_record ["names"] [.ofList .text r.names] rfl rfl (by decide)
    (by simp [Key.plain_name_iff]) ?_ fun hslots => ?_
  · simpa using hnames.plain
  · rw [ofJson?, hslots]
    simp [Slot.required, hnames.decode_encode, ext (names_ofList r.sorted)]

end Registry

/-! ### The table of shelves -/

namespace ShelfTable

/-- A shelf of a file after all others is put at the end. -/
lemma replace_of_forall_lt {file : FileId} {shelf : Shelf} {rows : List (FileId × Shelf)}
    (h : ∀ row ∈ rows, row.1 < file) (hshelf : shelf ≠ []) :
    replace file shelf rows = rows ++ [(file, shelf)] := by
  induction rows with
  | nil => exact if_neg hshelf
  | cons row rows ih =>
    obtain ⟨hrow, hrows⟩ := List.forall_mem_cons.mp h
    rw [replace, if_neg (Nat.lt_asymm hrow), if_neg (Nat.ne_of_gt hrow), ih hrows, List.cons_append]

/-- The shelf of a row is the shelf of its file. -/
lemma get_of_mem {t : ShelfTable} {row : FileId × Shelf} (h : row ∈ t.rows) :
    t.get row.1 = row.2 := by
  obtain ⟨rows, hascending, hoccupied⟩ := t
  simp only [get] at h ⊢
  clear hoccupied
  induction rows with
  | nil => exact absurd h List.not_mem_nil
  | cons first rows ih =>
    obtain ⟨hfirst, hrows⟩ := List.pairwise_cons.mp hascending
    rcases List.mem_cons.mp h with rfl | h
    · rw [lookup, if_pos rfl]
    · rw [lookup, if_neg (hfirst row h).ne, ih hrows h]

/-- Rows that follow those of a table are put in one after the other. -/
lemma exists_setMembers_eq {rows : List (FileId × Shelf)}
    (hfits : ∀ row ∈ rows, row.1 < Text.wordLimit ∧ ∀ s ∈ row.2, s.FitsWords) (t : ShelfTable)
    (hascending : (t.rows ++ rows).Pairwise fun a b => a.1 < b.1)
    (hoccupied : ∀ row ∈ rows, row.2 ≠ []) :
    ∃ t' : ShelfTable, t'.rows = t.rows ++ rows ∧
      t.setMembers (rows.map fun row => (.number row.1, .ofList Section.toJson row.2)) =
        some t' := by
  induction rows generalizing t with
  | nil => exact ⟨t, (List.append_nil _).symm, rfl⟩
  | cons row rows ih =>
    obtain ⟨hrow, hrows⟩ := List.forall_mem_cons.mp hfits
    obtain ⟨hne, hoccupied⟩ := List.forall_mem_cons.mp hoccupied
    have hbelow : ∀ r ∈ t.rows, r.1 < row.1 := by
      intro r hr
      exact (List.pairwise_append.mp hascending).2.2 r hr row List.mem_cons_self
    have hset : (t.set row.1 row.2).rows = t.rows ++ [row] := replace_of_forall_lt hbelow hne
    have hsplit : t.rows ++ row :: rows = (t.set row.1 row.2).rows ++ rows := by
      rw [hset, List.append_assoc, List.singleton_append]
    rw [hsplit] at hascending ⊢
    obtain ⟨t', hrows', hmembers⟩ := ih hrows (t.set row.1 row.2) hascending hoccupied
    have hkey : fileIdOfKey? (.number row.1) = some row.1 := if_pos hrow.1
    have hshelf : ReadsBack (Value.ofList Section.toJson) (Value.asList? Section.ofJson?) row.2 :=
      .ofList fun s hs => Section.readsBack (hrow.2 s hs)
    refine ⟨t', hrows', ?_⟩
    rw [List.map_cons, setMembers, hkey, hshelf.decode_encode]
    exact hmembers

/-- A table reads back if its numbers fit. -/
lemma readsBack {t : ShelfTable}
    (h : ∀ row ∈ t.rows, row.1 < Text.wordLimit ∧ ∀ s ∈ row.2, s.FitsWords) :
    ReadsBack toJson ofJson? t := by
  refine ⟨.object ?_ ?_, ?_⟩
  · intro m hm
    obtain ⟨row, -, rfl⟩ := List.mem_map.mp hm
    trivial
  · intro m hm
    obtain ⟨row, hrow, rfl⟩ := List.mem_map.mp hm
    exact .ofList fun s hs => (Section.readsBack ((h row hrow).2 s hs)).plain
  · obtain ⟨t', hrows, hmembers⟩ := exists_setMembers_eq h empty t.ascending t.occupied
    have heq : t' = t := by
      refine ext_get ?_
      intro file
      rw [get, get, hrows]
      rfl
    rw [toJson, ofJson?, hmembers, heq]

end ShelfTable

/-! ### The ledger -/

namespace Ledger

/-- Every file with a section has a number that fits a machine word, and so do the numbers of its
sections. -/
def FitsWords (l : Ledger) : Prop :=
  ∀ file, ∀ s ∈ l.shelf file, file < Text.wordLimit ∧ s.FitsWords

/-- The rows of a ledger whose numbers fit hold numbers that fit. -/
lemma FitsWords.rows {l : Ledger} (h : l.FitsWords) :
    ∀ row ∈ l.shelves.rows, row.1 < Text.wordLimit ∧ ∀ s ∈ row.2, s.FitsWords := by
  intro row hrow
  have hshelf : l.shelf row.1 = row.2 := ShelfTable.get_of_mem hrow
  obtain ⟨s, hs⟩ := List.exists_mem_of_ne_nil row.2 (l.shelves.occupied row hrow)
  refine ⟨(h row.1 s (hshelf ▸ hs)).1, ?_⟩
  intro s' hs'
  exact (h row.1 s' (hshelf ▸ hs')).2

/-- A ledger reads back if its numbers fit. -/
lemma readsBack {l : Ledger} (h : l.FitsWords) : ReadsBack toJson ofJson? l := by
  have hkinds := l.kinds.readsBack
  have hshelves := ShelfTable.readsBack h.rows
  refine .of_record ["kinds", "files"] [l.kinds.toJson, l.shelves.toJson] rfl rfl (by decide)
    (by simp [Key.plain_name_iff]) ?_ fun hslots => ?_
  · simpa using ⟨hkinds.plain, hshelves.plain⟩
  · rw [ofJson?, hslots]
    simp [Slot.required, hkinds.decode_encode, hshelves.decode_encode]

/-- The text of a saved ledger is loaded as that ledger. -/
lemma ofSavedText_savedText {l : Ledger} (h : l.FitsWords) : ofSavedText l.savedText = .ok l := by
  have hread : read? l.savedText = some l.toJson := read?_pretty (readsBack h).plain
  rw [ofSavedText, hread, Option.bind_eq_bind, Option.bind_some, (readsBack h).decode_encode]

/-- **Loading takes back saving.**  The text of a saved ledger is loaded as a ledger with the same
kinds, the same files and the same sections of every file in the same order; and that ledger is
saved as the same text. -/
theorem load_of_saved {l : Ledger} (h : l.FitsWords) :
    ∃ loaded, ofSavedText l.savedText = .ok loaded ∧ loaded.kinds.names = l.kinds.names ∧
      loaded.files = l.files ∧ (∀ file, loaded.shelf file = l.shelf file) ∧
      loaded.savedText = l.savedText := by
  have hload : ofSavedText l.savedText = .ok l := ofSavedText_savedText h
  refine ⟨l, hload, rfl, rfl, ?_, rfl⟩
  intro file
  rfl

/-- A section whose texts hold quotes, backslashes and control characters comes back, for the file
with the largest number. -/
theorem load_of_saved_awkward_texts :
    let s : Section :=
      ⟨⟨⟨1, 2⟩, "\"kind\\"⟩, 18446744073709551615, some .compiledWithWarnings, "1: \"x\"\n,",
        "\t\x00\x1b[0m\r\n\\u0041", "", "λ😀\x7f"⟩
    let l : Ledger := (ofKinds (.ofList ["\"kind\\", ""])).withShelf 18446744073709551615 [s]
    l.FitsWords ∧ ∃ loaded, ofSavedText l.savedText = .ok loaded ∧
      loaded.kinds.names = l.kinds.names ∧ loaded.files = l.files ∧
      (∀ file, loaded.shelf file = l.shelf file) ∧ loaded.savedText = l.savedText := by
  intro s l
  have hs : s.FitsWords := ⟨by decide, by decide, by decide⟩
  have hl : l.FitsWords := by
    intro file s' hs'
    by_cases hfile : 18446744073709551615 = file
    · subst hfile
      rw [shelf_withShelf_self, List.mem_singleton] at hs'
      subst hs'
      exact ⟨hs.file, hs⟩
    · rw [shelf_withShelf_other _ hfile] at hs'
      exact absurd hs' List.not_mem_nil
  exact ⟨hl, load_of_saved hl⟩

end Ledger

end SectionLedger
