import Mathlib
import SectionLedger.Directory.Basic
import SectionLedger.Proofs.Directory.Path
import SectionLedger.Proofs.Directory.ReadBack
import SectionLedger.Proofs.Text.ByteOrder

/-!
# Directories that are trees

A directory is a tree if its entries have names, stand in folders, and are reached from the root
like any other (`Directory.IsTree`).  Then the path of a place below a folder leads to the place
(`Directory.locate_joinPlace`), and what is read there is the text of the file and of no other
(`Directory.readText_joinPlace`).

The entries of a tree are kept in the order of their places.  That is the order of a walk which
enters every folder when it comes to it, and takes the names in a folder in the order of their bytes
(`Place.walksBefore_of_lt`).
-/

namespace SectionLedger

/-! ### The order of a walk -/

namespace Place

/-- A walk comes to one place before another: the second is within the first, or the first names in
which they differ are in the order of their bytes. -/
inductive WalksBefore : Place → Place → Prop
  /-- A folder comes before what is in it. -/
  | within (p : Place) (name : String) (q : Place) : WalksBefore p (p ++ name :: q)
  /-- In one folder, names are taken in the order of their bytes. -/
  | beside (folder : Place) {a b : String} (h : Text.bytes a < Text.bytes b) (p q : Place) :
      WalksBefore (folder ++ a :: p) (folder ++ b :: q)

/-- A walk does not come to one place twice. -/
lemma WalksBefore.ne {p q : Place} (h : WalksBefore p q) : p ≠ q := by
  cases h with
  | within p name q => simp
  | beside folder h p q =>
    intro heq
    obtain ⟨rfl, -⟩ := List.cons_eq_cons.mp (List.append_cancel_left heq)
    exact List.lt_irrefl _ h

/-- **The order of places is that of a walk.** -/
theorem walksBefore_of_lt {p q : Place} (h : p < q) : WalksBefore p q := by
  induction h with
  | @nil name q => exact .within [] name q
  | @rel a p b q hab => exact .beside [] (Text.bytes_lt_bytes hab) p q
  | @cons name p q _ ih =>
    cases ih with
    | within p next q => exact .within (name :: p) next q
    | beside folder h p q => exact .beside (name :: folder) h p q

/-- Places below one place are in the order of the rest of their names. -/
lemma lt_of_append_lt {root p q : Place} (h : root ++ p < root ++ q) : p < q := by
  induction root with
  | nil => exact h
  | cons name root ih =>
    rcases List.cons_lt_cons_iff.mp h with hlt | ⟨-, hrest⟩
    · exact absurd hlt (String.lt_irrefl name)
    · exact ih hrest

end Place

/-- An entry is found at its place. -/
lemma lookup_of_mem {rows : List (Place × Entry)} (hrows : rows.Pairwise fun a b => a.1 < b.1)
    {place : Place} {entry : Entry} (h : (place, entry) ∈ rows) :
    rows.lookup place = some entry := by
  induction rows with
  | nil => exact absurd h List.not_mem_nil
  | cons row rows ih =>
    obtain ⟨hfirst, hrows⟩ := List.pairwise_cons.mp hrows
    rcases List.mem_cons.mp h with rfl | hmem
    · exact List.lookup_cons_self
    · have hne : place ≠ row.1 := (Place.walksBefore_of_lt (hfirst _ hmem)).ne.symm
      rw [List.lookup_cons, beq_false_of_ne hne]
      exact ih hrows hmem

namespace Directory

/-- A directory is a tree: its entries have names that files can have, whatever stands above an
entry is a folder, and the directory itself is reached through folders. -/
structure IsTree (d : Directory) : Prop where
  isName : ∀ row ∈ d.rows, ∀ name ∈ row.1, Path.IsName name
  folder : ∀ row ∈ d.rows, ∀ n < row.1.length, d.get? (row.1.take n) = some .folder
  home : ∀ row ∈ d.rows, row.1 <+: d.home → row.2 = .folder

/-- The text of a file that is read by a path, given the bytes of the file. -/
def textOf (path : String) (content : ByteArray) : Except FileFault String :=
  if Path.limit < path.utf8ByteSize then .error .tooLong
  else match Text.readUtf8? content with
    | some text => .ok text
    | none => .error .notText

variable {d : Directory} {path : String} {root place : Place} {entry : Entry} {content : ByteArray}

/-! ### Following names -/

/-- Names are followed one list after the other. -/
lemma follow_append (d : Directory) (start : Place) (a b : List String) :
    d.follow start (a ++ b) = d.follow start a >>= fun place => d.follow place b := by
  induction a generalizing start with
  | nil => rfl
  | cons name a ih =>
    rw [List.cons_append, follow, follow]
    cases d.get? start with
    | none => rfl
    | some entry =>
      cases entry with
      | folder =>
        simp only
        split_ifs
        · exact ih start
        · exact ih start.dropLast
        · rfl
        · exact ih (start ++ [name])
      | file content => rfl
      | sink => rfl

/-- Names that lead through folders are followed to their place. -/
lemma follow_of_folders {start : Place} (hnames : ∀ name ∈ place, Path.IsName name)
    (hfolders : ∀ n < place.length, d.get? (start ++ place.take n) = some .folder) :
    d.follow start place = .ok (start ++ place) := by
  induction place generalizing start with
  | nil => rw [follow, List.append_nil]
  | cons name place ih =>
    obtain ⟨hname, hnames⟩ := List.forall_mem_cons.mp hnames
    have hstart : d.get? start = some .folder := by
      simpa using hfolders 0 (Nat.succ_pos _)
    have hrest : d.follow (start ++ [name]) place = .ok (start ++ [name] ++ place) := by
      refine ih hnames fun n hn => ?_
      simpa using hfolders (n + 1) (Nat.succ_lt_succ hn)
    rw [follow, hstart]
    simp only [if_neg hname.ne_dot, if_neg hname.ne_dots, if_neg (Nat.not_lt.mpr hname.short)]
    rw [hrest, List.append_assoc, List.singleton_append]

/-- The path of a place starts where that of the directory does, unless it is too long. -/
lemma start_joinPlace {start : Place} (hnames : ∀ name ∈ place, Path.IsName name)
    (hstart : d.start path = .ok start) :
    d.start (Path.joinPlace path place) =
      if Path.limit < (Path.joinPlace path place).utf8ByteSize then .error .tooLong
      else .ok start := by
  have hprefix := Path.prefix_joinPlace path hnames
  obtain ⟨hnul, hne, hplace⟩ : '\x00' ∉ path.toList ∧ path.toList ≠ [] ∧
      (if Path.isAbsolute path then [] else d.home) = start := by
    unfold Directory.start at hstart
    simp only [List.contains_iff_mem] at hstart
    split at hstart
    · contradiction
    · next hnul =>
      split at hstart
      · contradiction
      · next hempty =>
        split at hstart
        · contradiction
        · exact ⟨hnul, fun hnil => hempty (String.toList_inj.mp hnil), Except.ok.inj hstart⟩
  have hne' : Path.joinPlace path place ≠ "" := by
    intro hjoined
    rw [hjoined] at hprefix
    exact hne (List.prefix_nil.mp hprefix)
  have habsolute : Path.isAbsolute (Path.joinPlace path place) = Path.isAbsolute path := by
    obtain ⟨rest, hrest⟩ := hprefix
    rw [Path.isAbsolute, Path.isAbsolute, ← hrest, List.head?_append_of_ne_nil _ hne]
  unfold Directory.start
  simp only [List.contains_iff_mem]
  rw [if_neg (Path.nul_notMem_joinPlace hnames hnul), if_neg hne', habsolute, hplace]

/-- The path of a place leads there through folders, unless it is too long. -/
lemma locate_joinPlace (hroot : d.locate path = .ok root)
    (hnames : ∀ name ∈ place, Path.IsName name)
    (hfolders : ∀ n < place.length, d.get? (root ++ place.take n) = some .folder) :
    d.locate (Path.joinPlace path place) =
      if Path.limit < (Path.joinPlace path place).utf8ByteSize then .error .tooLong
      else .ok (root ++ place) := by
  obtain ⟨start, hstart, hfollow⟩ := exists_of_bind_eq_ok hroot
  have hplace : d.follow start (Path.names (Path.joinPlace path place)) = .ok (root ++ place) := by
    rw [Path.names_joinPlace hnames, follow_append, hfollow]
    exact follow_of_folders hnames hfolders
  rw [locate, start_joinPlace hnames hstart]
  split_ifs
  · rfl
  · exact hplace

/-- The root is found in every directory. -/
lemma locate_root (d : Directory) : d.locate "/" = .ok [] := by
  have hstart : d.start "/" = .ok [] := by
    rw [Directory.start, if_neg (by decide), if_neg (by decide), if_neg (by decide),
      if_pos (by decide)]
  have hnames : Path.names "/" = [] := by decide +kernel
  rw [locate, hstart, hnames]
  rfl

/-- A name is that of a file in the directory itself. -/
lemma locateFile_of_isName {name : String} (h : Path.IsName name) :
    d.locateFile name = .ok (d.home ++ [name]) := by
  have hslash : Path.endsInSlash name = false := by
    rw [Path.endsInSlash, beq_eq_false_iff_ne]
    intro hlast
    exact h.slash_notMem (List.mem_of_getLast? hlast)
  have hstart : d.start name = .ok d.home := by
    have hshort : ¬ Path.limit < name.utf8ByteSize :=
      Nat.not_lt.mpr (h.short.trans (by decide))
    simp [Directory.start, h.nul_notMem, h.ne_empty, hshort, Path.isAbsolute_of_isName h]
  have hfollow : d.follow d.home [name] = .ok (d.home ++ [name]) := by
    refine follow_of_folders (List.forall_mem_singleton.mpr h) fun n hn => ?_
    obtain rfl : n = 0 := Nat.lt_one_iff.mp hn
    rw [List.take_zero, List.append_nil]
    exact get?_of_isPrefixOf (List.isPrefixOf_iff_prefix.mpr List.prefix_rfl)
  refine locateFile_eq_ok_iff.mpr ⟨hslash, ?_⟩
  rw [locate, hstart, Path.names_of_isName h]
  exact hfollow

/-! ### Reading a tree -/

namespace IsTree

/-- What stands at the place of an entry is the entry. -/
lemma get?_of_mem (h : d.IsTree) (hmem : (place, entry) ∈ d.rows) :
    d.get? place = some entry := by
  rw [get?]
  split_ifs with hhome
  · have hfolder : entry = .folder := h.home _ hmem (List.isPrefixOf_iff_prefix.mp hhome)
    rw [hfolder]
  · rw [lookup_of_mem d.ascending hmem, Option.some_or]

/-- The names of an entry below a place are names. -/
lemma isName_of_append (h : d.IsTree) (hmem : (root ++ place, entry) ∈ d.rows) :
    ∀ name ∈ place, Path.IsName name :=
  fun name hname => h.isName _ hmem name (List.mem_append_right _ hname)

/-- Whatever stands between a place and an entry below it is a folder. -/
lemma folder_of_append (h : d.IsTree) (hmem : (root ++ place, entry) ∈ d.rows) :
    ∀ n < place.length, d.get? (root ++ place.take n) = some .folder := by
  intro n hn
  have hfolder := h.folder _ hmem (root.length + n) (by simpa using hn)
  rwa [List.take_length_add_append] at hfolder

/-- The folder of an entry can be reached if its path is not too long. -/
lemma has_dropLast (h : d.IsTree) (hroot : d.locate path = .ok root)
    (hmem : (root ++ place, entry) ∈ d.rows) (hne : place ≠ [])
    (hsize : (Path.joinPlace path place.dropLast).utf8ByteSize ≤ Path.limit) :
    d.has (Path.joinPlace path place.dropLast) = true := by
  have hnames : ∀ name ∈ place.dropLast, Path.IsName name :=
    fun name hname => h.isName_of_append hmem name (List.mem_of_mem_dropLast hname)
  have hlength : 0 < place.length := List.length_pos_iff.mpr hne
  have hfolders : ∀ n < place.dropLast.length,
      d.get? (root ++ place.dropLast.take n) = some .folder := by
    intro n hn
    rw [List.length_dropLast] at hn
    rw [List.dropLast_eq_take, List.take_take, min_eq_left (by omega)]
    exact h.folder_of_append hmem n (by omega)
  have hfolder : d.get? (root ++ place.dropLast) = some .folder := by
    rw [List.dropLast_eq_take]
    exact h.folder_of_append hmem _ (by omega)
  rw [has, find, locate_joinPlace hroot hnames hfolders, if_neg (Nat.not_lt.mpr hsize)]
  simp only [bind, Except.bind, hfolder]
  rfl

/-- **A file of a tree is read as its own text**, and no other file matters. -/
theorem readText_joinPlace (h : d.IsTree) (hroot : d.locate path = .ok root)
    (hmem : (root ++ place, .file content) ∈ d.rows) (hne : place ≠ []) :
    d.readText (Path.joinPlace path place) = textOf (Path.joinPlace path place) content := by
  have hnames := h.isName_of_append hmem
  have hlocate := locate_joinPlace hroot hnames (h.folder_of_append hmem)
  have hfile : d.get? (root ++ place) = some (.file content) := h.get?_of_mem hmem
  have hslash : Path.endsInSlash (Path.joinPlace path place) = false := by
    obtain ⟨above, name, rfl⟩ := List.eq_nil_or_concat' place |>.resolve_left hne
    rw [Path.joinPlace_concat]
    exact Path.endsInSlash_join (hnames name (by simp))
  rw [readText, textOf]
  by_cases hlong : Path.limit < (Path.joinPlace path place).utf8ByteSize
  · rw [if_pos hlong] at hlocate ⊢
    rw [read, find, hlocate]
    rfl
  · rw [if_neg hlong] at hlocate ⊢
    have hread : d.read (Path.joinPlace path place) = .ok content :=
      read_eq_ok_iff.mpr ⟨_, locateFile_eq_ok_iff.mpr ⟨hslash, hlocate⟩, .inl hfile⟩
    rw [hread]
    rfl

end IsTree

end Directory

end SectionLedger
