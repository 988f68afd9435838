import Mathlib
import SectionLedger.Directory.Path
import SectionLedger.Proofs.Text.Fragments

/-!
# Paths of places

The path of a place below a directory is the path of the directory with the names of the place
joined to it, one by one.  If they are names that a file can have (`Path.IsName`), the names of the
path are those of the directory and then those of the place (`Path.names_joinPlace`), so the path
leads where the place says, and different places have different paths (`Path.joinPlace_injective`).
-/

namespace SectionLedger.Path

/-- A name that a file can have. -/
structure IsName (name : String) : Prop where
  ne_empty : name ≠ ""
  slash_notMem : '/' ∉ name.toList
  nul_notMem : '\x00' ∉ name.toList
  ne_dot : name ≠ "."
  ne_dots : name ≠ ".."
  short : name.utf8ByteSize ≤ nameLimit

instance (name : String) : Decidable (IsName name) :=
  decidable_of_iff (name ≠ "" ∧ '/' ∉ name.toList ∧ '\x00' ∉ name.toList ∧ name ≠ "." ∧
      name ≠ ".." ∧ name.utf8ByteSize ≤ nameLimit)
    ⟨fun ⟨h₁, h₂, h₃, h₄, h₅, h₆⟩ => ⟨h₁, h₂, h₃, h₄, h₅, h₆⟩,
      fun ⟨h₁, h₂, h₃, h₄, h₅, h₆⟩ => ⟨h₁, h₂, h₃, h₄, h₅, h₆⟩⟩

variable {directory name path : String} {place : Place}

/-! ### Names -/

/-- The names in front of a slash come first. -/
lemma names_of_slash {a b : List Char} (h : path.toList = a ++ '/' :: b) :
    names path = names (String.ofList a) ++ names (String.ofList b) := by
  rw [names, names, names, h, Text.fragments_singleton_append, List.filter_append,
    List.map_append, String.toList_ofList, String.toList_ofList]

/-- A name is the path of one name. -/
lemma names_of_isName (h : IsName name) : names name = [name] := by
  have hne : name.toList ≠ [] := by
    intro hnil
    exact h.ne_empty (String.toList_inj.mp hnil)
  rw [names, Text.fragments_of_cut?_eq_none (Text.cut?_singleton_of_notMem h.slash_notMem)]
  simp [hne]

/-- A name is no path from the root. -/
lemma isAbsolute_of_isName (h : IsName name) : isAbsolute name = false := by
  rw [isAbsolute, beq_eq_false_iff_ne]
  intro hhead
  exact h.slash_notMem (List.mem_of_mem_head? hhead)

/-- A name is joined behind a slash, if there is anything in front of it. -/
lemma join_cases (directory : String) (h : IsName name) :
    directory = "" ∧ join directory name = name ∨
      (∃ a, directory.toList = a ++ ['/'] ∧
        (join directory name).toList = a ++ '/' :: name.toList) ∨
      directory ≠ "" ∧ (join directory name).toList = directory.toList ++ '/' :: name.toList := by
  unfold join
  rw [isAbsolute_of_isName h, if_neg Bool.false_ne_true]
  by_cases hempty : directory = ""
  · subst hempty
    exact .inl ⟨rfl, by simp⟩
  · cases hslash : endsInSlash directory with
    | true =>
      have hlast : directory.toList.getLast? = some '/' := by
        simpa [endsInSlash] using hslash
      obtain ⟨a, ha⟩ := List.getLast?_eq_some_iff.mp hlast
      refine .inr (.inl ⟨a, ha, ?_⟩)
      rw [if_pos (.inr rfl), String.toList_append, ha, List.append_assoc, List.singleton_append]
    | false =>
      refine .inr (.inr ⟨hempty, ?_⟩)
      simp [hempty]

/-- The name that is joined comes last. -/
lemma names_join (h : IsName name) : names (join directory name) = names directory ++ [name] := by
  have hempty : names (String.ofList []) = [] := by
    simp [names, Text.fragments_of_cut?_eq_none (Text.cut?_singleton_of_notMem List.not_mem_nil)]
  rcases join_cases directory h with ⟨rfl, hjoin⟩ | ⟨a, ha, hjoin⟩ | ⟨-, hjoin⟩
  · rw [hjoin, names_of_isName h]
    exact congrArg (· ++ [name]) hempty.symm
  · rw [names_of_slash hjoin, names_of_slash ha, hempty, List.append_nil, String.ofList_toList,
      names_of_isName h]
  · rw [names_of_slash hjoin, String.ofList_toList, String.ofList_toList, names_of_isName h]

/-- **The names of a place come last in its path**, in their order. -/
theorem names_joinPlace (h : ∀ name ∈ place, IsName name) :
    names (joinPlace directory place) = names directory ++ place := by
  induction place generalizing directory with
  | nil => exact (List.append_nil _).symm
  | cons name place ih =>
    obtain ⟨hname, hplace⟩ := List.forall_mem_cons.mp h
    have hrest : names (joinPlace (join directory name) place) =
        names (join directory name) ++ place := ih hplace
    rw [names_join hname, List.append_assoc, List.singleton_append] at hrest
    exact hrest

/-- Different places below a directory have different paths. -/
lemma joinPlace_injective {place' : Place} (h : ∀ name ∈ place, IsName name)
    (h' : ∀ name ∈ place', IsName name)
    (heq : joinPlace directory place = joinPlace directory place') : place = place' := by
  have hnames : names directory ++ place = names directory ++ place' := by
    rw [← names_joinPlace h, ← names_joinPlace h', heq]
  exact List.append_cancel_left hnames

/-! ### The text of a path -/

/-- What holds of the path of a directory, and still holds when a name is joined to a path, holds of
the path of any place. -/
lemma joinPlace_induction {P : String → Prop}
    (hjoin : ∀ directory name, IsName name → P directory → P (join directory name))
    (h : ∀ name ∈ place, IsName name) (hdirectory : P directory) :
    P (joinPlace directory place) := by
  induction place generalizing directory with
  | nil => exact hdirectory
  | cons name place ih =>
    obtain ⟨hname, hplace⟩ := List.forall_mem_cons.mp h
    exact ih hplace (hjoin directory name hname hdirectory)

/-- A path without a null character has none after a name is joined. -/
lemma nul_notMem_join (h : IsName name) (hdirectory : '\x00' ∉ directory.toList) :
    '\x00' ∉ (join directory name).toList := by
  rcases join_cases directory h with ⟨-, hjoin⟩ | ⟨a, ha, hjoin⟩ | ⟨-, hjoin⟩
  · rw [hjoin]
    exact h.nul_notMem
  · rw [hjoin]
    rw [ha] at hdirectory
    simpa [h.nul_notMem] using hdirectory
  · rw [hjoin]
    simpa [h.nul_notMem] using hdirectory

/-- A path without a null character has none after the names of a place are joined. -/
lemma nul_notMem_joinPlace (h : ∀ name ∈ place, IsName name)
    (hdirectory : '\x00' ∉ directory.toList) : '\x00' ∉ (joinPlace directory place).toList :=
  joinPlace_induction (P := fun path => '\x00' ∉ path.toList)
    (fun _ _ hname hpath => nul_notMem_join hname hpath) h hdirectory

/-- A path begins with the path that a name was joined to. -/
lemma prefix_join (h : IsName name) : directory.toList <+: (join directory name).toList := by
  rcases join_cases directory h with ⟨rfl, -⟩ | ⟨a, ha, hjoin⟩ | ⟨-, hjoin⟩
  · exact List.nil_prefix
  · rw [hjoin, ha]
    exact ⟨name.toList, by simp⟩
  · rw [hjoin]
    exact List.prefix_append _ _

/-- The path of a place below a directory begins with that of the directory. -/
lemma prefix_joinPlace (directory : String) (h : ∀ name ∈ place, IsName name) :
    directory.toList <+: (joinPlace directory place).toList :=
  joinPlace_induction (P := fun path => directory.toList <+: path.toList)
    (fun _ _ hname hpath => hpath.trans (prefix_join hname)) h List.prefix_rfl

/-- A path that a name was joined to does not end in a slash. -/
lemma endsInSlash_join (h : IsName name) : endsInSlash (join directory name) = false := by
  have hne : name.toList ≠ [] := by
    intro hnil
    exact h.ne_empty (String.toList_inj.mp hnil)
  have hlast : (join directory name).toList.getLast? = name.toList.getLast? := by
    rcases join_cases directory h with ⟨-, hjoin⟩ | ⟨a, -, hjoin⟩ | ⟨-, hjoin⟩
    · rw [hjoin]
    · rw [hjoin, List.getLast?_append_cons, List.getLast?_cons, List.getLast?_eq_some_getLast hne]
      rfl
    · rw [hjoin, List.getLast?_append_cons, List.getLast?_cons, List.getLast?_eq_some_getLast hne]
      rfl
  rw [endsInSlash, hlast, beq_eq_false_iff_ne]
  intro hslash
  exact h.slash_notMem (List.mem_of_getLast? hslash)

/-- A name makes a path longer by itself and a slash at most. -/
lemma utf8ByteSize_join_le (directory : String) (h : IsName name) :
    (join directory name).utf8ByteSize ≤ directory.utf8ByteSize + 1 + name.utf8ByteSize := by
  have hslash : ("/" : String).utf8ByteSize = 1 := by decide
  rw [join, isAbsolute_of_isName h, if_neg Bool.false_ne_true]
  split_ifs
  · rw [String.utf8ByteSize_append]
    omega
  · rw [String.utf8ByteSize_append, String.utf8ByteSize_append, hslash]

/-- The last name of a place is joined last. -/
lemma joinPlace_concat (directory : String) (place : Place) (name : String) :
    joinPlace directory (place ++ [name]) = join (joinPlace directory place) name :=
  List.foldl_concat ..

/-! ### Sources -/

/-- A name with the extension of C source behind something. -/
def IsSourceName (name : String) : Prop :=
  ∃ stem : String, stem ≠ "" ∧ (name = stem ++ ".c" ∨ name = stem ++ ".h")

/-- The extension of a name is what stands behind its last dot, if anything stands before that. -/
lemma extension?_eq_some_iff {e : String} :
    extension? name = some e ↔
      ∃ stem : List Char, stem ≠ [] ∧ name.toList = stem ++ '.' :: e.toList ∧ '.' ∉ e.toList := by
  constructor
  · intro h
    simp only [extension?] at h
    split at h
    · next dot last rest hdrop =>
      obtain rfl : dot = '.' := by
        have hne : name.toList.reverse.dropWhile (· ≠ '.') ≠ [] := by
          rw [hdrop]
          exact List.cons_ne_nil _ _
        have hhead := List.head_dropWhile_not (· ≠ '.') hne
        simp only [hdrop, List.head_cons] at hhead
        simpa using hhead
      have hsplit := List.takeWhile_append_dropWhile (p := (· ≠ '.')) (l := name.toList.reverse)
      have hnodot : ∀ c ∈ name.toList.reverse.takeWhile (· ≠ '.'), c ≠ '.' := by
        intro c hc
        simpa using List.mem_takeWhile_imp hc
      obtain rfl := Option.some.inj h
      rw [hdrop] at hsplit
      generalize name.toList.reverse.takeWhile (· ≠ '.') = reversed at hsplit hnodot
      have hname := congrArg List.reverse hsplit
      rw [List.reverse_reverse, List.reverse_append, List.reverse_cons] at hname
      refine ⟨(last :: rest).reverse, by simp, ?_, ?_⟩
      · rw [String.toList_ofList, ← hname, List.append_assoc]
        rfl
      · rw [String.toList_ofList, List.mem_reverse]
        exact fun hmem => hnodot '.' hmem rfl
    · contradiction
  · rintro ⟨stem, hne, hname, hdot⟩
    obtain ⟨last, rest, hstem⟩ := List.exists_cons_of_ne_nil (List.reverse_ne_nil_iff.mpr hne)
    have hkeep : ∀ c ∈ e.toList.reverse, decide (c ≠ '.') = true := by
      intro c hc
      rw [decide_eq_true_eq]
      rintro rfl
      exact hdot (List.mem_reverse.mp hc)
    have hreverse : name.toList.reverse = e.toList.reverse ++ '.' :: last :: rest := by
      rw [hname, List.reverse_append, List.reverse_cons, hstem, List.append_assoc]
      rfl
    simp only [extension?, hreverse, List.takeWhile_append_of_pos hkeep,
      List.dropWhile_append_of_pos hkeep]
    simp

/-- **Sources are told by their last name.**  The path of a place is that of a source if the last
name of the place has the extension of one. -/
theorem isSource_joinPlace_iff (h : ∀ name ∈ place, IsName name)
    (hlast : place.getLast? = some name) :
    isSource (joinPlace directory place) = true ↔ IsSourceName name := by
  have hname : IsName name := h name (List.mem_of_getLast? hlast)
  have hfile : fileName? (joinPlace directory place) = some name := by
    obtain ⟨above, rfl⟩ := List.getLast?_eq_some_iff.mp hlast
    rw [fileName?, names_joinPlace h, ← List.append_assoc, List.filter_append]
    simp [hname.ne_dot, hname.ne_dots]
  have hextension : ∀ e : String, '.' ∉ e.toList →
      (extension? name = some e ↔ ∃ stem : String, stem ≠ "" ∧ name = stem ++ "." ++ e) := by
    intro e he
    rw [extension?_eq_some_iff]
    constructor
    · rintro ⟨stem, hne, hstem, -⟩
      refine ⟨String.ofList stem, ?_, ?_⟩
      · intro hempty
        exact hne (by rw [← String.toList_ofList (l := stem), hempty]; rfl)
      · rw [← String.toList_inj, String.toList_append, String.toList_append, String.toList_ofList,
          hstem, List.append_assoc]
        rfl
    · rintro ⟨stem, hne, rfl⟩
      refine ⟨stem.toList, ?_, ?_, he⟩
      · intro hempty
        exact hne (String.toList_inj.mp hempty)
      · rw [String.toList_append, String.toList_append, List.append_assoc]
        rfl
  have hc := hextension "c" (by decide)
  have hh := hextension "h" (by decide)
  have hsource : isSource (joinPlace directory place) = true ↔
      extension? name = some "c" ∨ extension? name = some "h" := by
    rw [isSource, hfile, Option.bind_eq_bind, Option.bind_some]
    cases extension? name <;> simp
  have hdotC : "." ++ "c" = ".c" := rfl
  have hdotH : "." ++ "h" = ".h" := rfl
  rw [hsource, hc, hh, IsSourceName]
  simp only [String.append_assoc, hdotC, hdotH, ← exists_or, ← and_or_left]

end SectionLedger.Path
