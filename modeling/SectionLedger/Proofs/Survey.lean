import Mathlib
import SectionLedger.Survey
import SectionLedger.Proofs.Directory.Tree
import SectionLedger.Proofs.Ledger.Reparse

/-!
# What a survey lists

A survey of a tree lists the C sources below its root, each once, in the order of a walk
(`Survey.ofDirectory_lists_sources`).  What it says of a file depends on the bytes of that file
alone (`FileSurvey.ofText`): why it could not be read or cut, or else how many sections it has,
which is what a ledger without sections would store for it (`FileSurvey.describes_ofText`).
-/

namespace SectionLedger

/-! ### One file -/

namespace FileSurvey

/-- The survey of a file with a text, or of one that cannot be read. -/
def ofText (path : String) : Except FileFault String → FileSurvey
  | .error cause => ⟨path, 0, 0, some (Fault.unreadable path cause).message⟩
  | .ok text =>
    let lines := (Source.ofFile text).lines
    match fileSpans lines with
    | .ok spans => ⟨path, lines.length, spans.length, none⟩
    | .error fault => ⟨path, lines.length, 0, some fault.message⟩

/-- The survey of the file that a path leads to is that of its text. -/
lemma ofPath_eq_ofText (d : Directory) (path : String) :
    ofPath d path = ofText path (d.readText path) := by
  rw [ofPath]
  cases d.readText path <;> rfl

/-- A survey keeps the path of its file. -/
lemma path_ofText (path : String) (text : Except FileFault String) :
    (ofText path text).path = path := by
  cases text with
  | error cause => rfl
  | ok t =>
    rw [ofText]
    split <;> rfl

/-- What a survey says of a file with a text, or of one that cannot be read. -/
structure Describes (f : FileSurvey) (text : Except FileFault String) : Prop where
  /-- There is a failure exactly if there is no text, or one that cannot be cut. -/
  failure_iff : f.failure.isSome = true ↔ (∃ cause, text = .error cause) ∨
    ∃ t fault, text = .ok t ∧ fileSpans (Source.ofFile t).lines = .error fault
  /-- Without one, the sections are as many as a ledger without sections would store. -/
  counted : f.failure = none → ∃ t, text = .ok t ∧ f.lines = (Source.ofFile t).lines.length ∧
    ∀ file, (Ledger.empty.reparse file (Source.ofFile t)).2 = .ok f.sections

/-- The survey of a text that can be cut counts its spans. -/
lemma ofText_of_cut (path : String) {t : String} {spans : List Span}
    (h : fileSpans (Source.ofFile t).lines = .ok spans) :
    ofText path (.ok t) = ⟨path, (Source.ofFile t).lines.length, spans.length, none⟩ := by
  simp only [ofText, h]

/-- The survey of another text has the fault. -/
lemma ofText_of_fault (path : String) {t : String} {fault : Fault}
    (h : fileSpans (Source.ofFile t).lines = .error fault) :
    ofText path (.ok t) = ⟨path, (Source.ofFile t).lines.length, 0, some fault.message⟩ := by
  simp only [ofText, h]

/-- **The survey of a file describes it.** -/
theorem describes_ofText (path : String) (text : Except FileFault String) :
    (ofText path text).Describes text := by
  have hkinds : ∀ kind ∈ Kind.builtin, Ledger.empty.kinds.contains kind = true := by decide
  cases text with
  | error cause => exact ⟨iff_of_true rfl (.inl ⟨cause, rfl⟩), nofun⟩
  | ok t =>
    cases hcut : fileSpans (Source.ofFile t).lines with
    | error fault =>
      rw [ofText_of_fault path hcut]
      exact ⟨iff_of_true rfl (.inr ⟨t, fault, rfl, hcut⟩), nofun⟩
    | ok spans =>
      rw [ofText_of_cut path hcut]
      refine ⟨iff_of_false Bool.false_ne_true ?_, fun _ => ⟨t, rfl, rfl, ?_⟩⟩
      · rintro (⟨cause, h⟩ | ⟨t', fault, h, hfault⟩)
        · contradiction
        · obtain rfl := Except.ok.inj h
          rw [hcut] at hfault
          contradiction
      · intro file
        rw [Ledger.reparse_of_ok hkinds hcut]

/-- There is no failure if there is a text that can be cut. -/
lemma failure_ofText_eq_none_iff {path : String} {text : Except FileFault String} :
    (ofText path text).failure = none ↔
      ∃ t spans, text = .ok t ∧ fileSpans (Source.ofFile t).lines = .ok spans := by
  cases text with
  | error cause => simp [ofText]
  | ok t =>
    cases hcut : fileSpans (Source.ofFile t).lines with
    | error fault => simp [ofText_of_fault path hcut, hcut]
    | ok spans => simp [ofText_of_cut path hcut, hcut]

end FileSurvey

/-! ### The files below a folder -/

namespace Directory

variable {d : Directory} {path : String} {root place : Place} {entry : Entry} {content : ByteArray}

/-- The entries below a place are those whose places begin with it. -/
lemma mem_below_iff : (place, entry) ∈ d.below root ↔ (root ++ place, entry) ∈ d.rows := by
  rw [below, List.mem_map]
  constructor
  · rintro ⟨row, hrow, heq⟩
    obtain ⟨hmem, hprefix⟩ := List.mem_filter.mp hrow
    obtain ⟨rest, hrest⟩ := List.isPrefixOf_iff_prefix.mp hprefix
    obtain ⟨rfl, rfl⟩ := Prod.mk.inj heq
    rw [← hrest, List.drop_left, hrest]
    exact hmem
  · intro hmem
    refine ⟨_, List.mem_filter.mpr ⟨hmem, ?_⟩, ?_⟩
    · exact List.isPrefixOf_iff_prefix.mpr (List.prefix_append _ _)
    · rw [List.drop_left]

/-- The entries below a place are in the order of a walk. -/
lemma below_walksBefore (d : Directory) (root : Place) :
    (d.below root).Pairwise fun a b => a.1.WalksBefore b.1 := by
  rw [below, List.pairwise_map]
  refine (d.ascending.filter _).imp_of_mem ?_
  intro a b ha hb hab
  obtain ⟨p, hp⟩ := List.isPrefixOf_iff_prefix.mp (List.mem_filter.mp ha).2
  obtain ⟨q, hq⟩ := List.isPrefixOf_iff_prefix.mp (List.mem_filter.mp hb).2
  rw [← hp, ← hq] at hab ⊢
  rw [List.drop_left, List.drop_left]
  exact Place.walksBefore_of_lt (Place.lt_of_append_lt hab)

/-- The sources below a place that a path leads to, with their bytes. -/
def sourcesBelow (d : Directory) (path : String) (root : Place) : List (Place × ByteArray) :=
  (d.below root).filterMap fun row =>
    match row.2 with
    | .file content =>
      if Path.isSource (Path.joinPlace path row.1) then some (row.1, content) else none
    | _ => none

/-- Below a folder of a tree, no file is at the folder itself. -/
lemma IsTree.ne_nil_of_file (h : d.IsTree) (hfolder : d.get? root = some .folder)
    (hmem : (root ++ place, .file content) ∈ d.rows) : place ≠ [] := by
  rintro rfl
  rw [List.append_nil] at hmem
  have hfile := h.get?_of_mem hmem
  rw [hfolder] at hfile
  cases hfile

/-- The sources below a folder of a tree are the files with the name of one. -/
lemma mem_sourcesBelow_iff (h : d.IsTree) (hfolder : d.get? root = some .folder) :
    (place, content) ∈ d.sourcesBelow path root ↔
      (root ++ place, .file content) ∈ d.rows ∧
        ∃ name, place.getLast? = some name ∧ Path.IsSourceName name := by
  have hsource : (root ++ place, .file content) ∈ d.rows →
      (Path.isSource (Path.joinPlace path place) = true ↔
        ∃ name, place.getLast? = some name ∧ Path.IsSourceName name) := by
    intro hmem
    have hne := h.ne_nil_of_file hfolder hmem
    have hlast := List.getLast?_eq_some_getLast hne
    rw [Path.isSource_joinPlace_iff (h.isName_of_append hmem) hlast, hlast]
    simp
  rw [sourcesBelow, List.mem_filterMap]
  constructor
  · rintro ⟨⟨p, e⟩, hrow, heq⟩
    cases e with
    | file c =>
      obtain ⟨hsourced, hpair⟩ := Option.ite_none_right_eq_some.mp heq
      obtain ⟨rfl, rfl⟩ := Prod.mk.inj (Option.some.inj hpair)
      have hmem := mem_below_iff.mp hrow
      exact ⟨hmem, (hsource hmem).mp hsourced⟩
    | folder => contradiction
    | sink => contradiction
  · rintro ⟨hmem, hname⟩
    exact ⟨_, mem_below_iff.mpr hmem, if_pos ((hsource hmem).mpr hname)⟩

/-- They are in the order of a walk. -/
lemma sourcesBelow_walksBefore (d : Directory) (path : String) (root : Place) :
    (d.sourcesBelow path root).Pairwise fun a b => a.1.WalksBefore b.1 := by
  have hplace : ∀ row : Place × Entry, ∀ file : Place × ByteArray,
      (match row.2 with
        | .file content =>
          if Path.isSource (Path.joinPlace path row.1) then some (row.1, content) else none
        | _ => none) = some file → file.1 = row.1 := by
    rintro ⟨p, e⟩ file heq
    cases e with
    | file c =>
      obtain ⟨-, hpair⟩ := Option.ite_none_right_eq_some.mp heq
      obtain rfl := Option.some.inj hpair
      rfl
    | folder => contradiction
    | sink => contradiction
  rw [sourcesBelow, List.pairwise_filterMap]
  refine (d.below_walksBefore root).imp ?_
  intro a b hab file hfile file' hfile'
  rw [hplace a file hfile, hplace b file' hfile']
  exact hab

/-- A walk below a place that a path leads to can open the folder of every file there, because the
path of the folder is not too long. -/
def CanBeWalked (d : Directory) (path : String) (root : Place) : Prop :=
  ∀ place content, (root ++ place, Entry.file content) ∈ d.rows →
    (Path.joinPlace path place.dropLast).utf8ByteSize ≤ Path.limit

/-- The walk finds the paths of all files. -/
lemma IsTree.filesFrom_of_folder (h : d.IsTree) (hroot : d.locate path = .ok root)
    (hfolder : d.get? root = some .folder) (hwalk : d.CanBeWalked path root) :
    d.filesFrom path = (d.below root).filterMap fun row =>
      match row.2 with
      | .file _ => some (Path.joinPlace path row.1)
      | _ => none := by
  have hfind : d.find path = .ok .folder := by
    rw [find, hroot]
    simp only [bind, Except.bind, hfolder]
  simp only [filesFrom, hfind, hroot]
  refine List.filterMap_congr ?_
  rintro ⟨place, entry⟩ hrow
  cases entry with
  | file content =>
    have hmem := mem_below_iff.mp hrow
    exact if_pos (h.has_dropLast hroot hmem (h.ne_nil_of_file hfolder hmem) (hwalk _ _ hmem))
  | folder => rfl
  | sink => rfl

/-- The survey is that of the sources below the folder, each by its own bytes. -/
lemma IsTree.files_ofDirectory (h : d.IsTree) (hroot : d.locate path = .ok root)
    (hfolder : d.get? root = some .folder) (hwalk : d.CanBeWalked path root) :
    (Survey.ofDirectory d path).files = (d.sourcesBelow path root).map fun file =>
      FileSurvey.ofText (Path.joinPlace path file.1)
        (textOf (Path.joinPlace path file.1) file.2) := by
  rw [Survey.ofDirectory, Survey.ofFiles, h.filesFrom_of_folder hroot hfolder hwalk, sourcesBelow,
    List.filter_filterMap, List.map_filterMap, List.map_filterMap]
  refine List.filterMap_congr ?_
  rintro ⟨place, entry⟩ hrow
  cases entry with
  | file content =>
    have hmem := mem_below_iff.mp hrow
    have hread := h.readText_joinPlace hroot hmem (h.ne_nil_of_file hfolder hmem)
    cases hsource : Path.isSource (Path.joinPlace path place) with
    | true => simp [hsource, FileSurvey.ofPath_eq_ofText, hread]
    | false => simp [hsource]
  | folder => rfl
  | sink => rfl

end Directory

/-! ### The survey of a tree -/

namespace Survey

variable {d : Directory} {path : String} {root : Place}

/-- A survey has passed if no file has a failure. -/
lemma passed_ofDirectory_iff :
    (ofDirectory d path).passed = true ↔
      ∀ f ∈ (ofDirectory d path).files, f.failure = none := by
  have hzero : (ofDirectory d path).failures = 0 ↔
      ∀ f ∈ (ofDirectory d path).files, ¬ f.failure.isSome = true := List.countP_eq_zero
  rw [passed, beq_iff_eq, hzero]
  simp only [Option.not_isSome_iff_eq_none]

/-- **What a survey of a tree lists.**  It lists the files below the folder whose names have the
extension of C source, and nothing else, each of them once and in the order of a walk.  What it
says of one of them depends on its own bytes alone, and describes them; and it has passed if all of
them can be read and cut. -/
theorem ofDirectory_lists_sources (h : d.IsTree) (hroot : d.locate path = .ok root)
    (hfolder : d.get? root = some .folder) (hwalk : d.CanBeWalked path root) :
    let survey := ofDirectory d path
    ∃ found : List (Place × ByteArray),
      (∀ place content, (place, content) ∈ found ↔ (root ++ place, .file content) ∈ d.rows ∧
        ∃ name, place.getLast? = some name ∧ Path.IsSourceName name) ∧
      (found.Pairwise fun a b => a.1.WalksBefore b.1) ∧
      (survey.files = found.map fun file => FileSurvey.ofText (Path.joinPlace path file.1)
        (Directory.textOf (Path.joinPlace path file.1) file.2)) ∧
      (survey.files.map FileSurvey.path).Nodup ∧
      (∀ f ∈ survey.files, f.Describes (d.readText f.path)) ∧
      survey.failures = (survey.files.filter fun f => f.failure.isSome).length ∧
      (survey.passed = true ↔ ∀ file ∈ found, ∃ text spans,
        Directory.textOf (Path.joinPlace path file.1) file.2 = .ok text ∧
          fileSpans (Source.ofFile text).lines = .ok spans) := by
  intro survey
  have hmem : ∀ place content, (place, content) ∈ d.sourcesBelow path root ↔
      (root ++ place, .file content) ∈ d.rows ∧
        ∃ name, place.getLast? = some name ∧ Path.IsSourceName name :=
    fun place content => Directory.mem_sourcesBelow_iff h hfolder
  have hordered := d.sourcesBelow_walksBefore path root
  have hfiles : survey.files = _ := h.files_ofDirectory hroot hfolder hwalk
  have hread : ∀ file ∈ d.sourcesBelow path root,
      d.readText (Path.joinPlace path file.1) =
        Directory.textOf (Path.joinPlace path file.1) file.2 := by
    rintro ⟨place, content⟩ hfile
    have hrow := ((hmem place content).mp hfile).1
    exact h.readText_joinPlace hroot hrow (h.ne_nil_of_file hfolder hrow)
  refine ⟨d.sourcesBelow path root, hmem, hordered, hfiles, ?_, ?_, ?_, ?_⟩
  · -- different places have different paths
    rw [hfiles, List.map_map]
    refine List.pairwise_map.mpr (hordered.imp_of_mem ?_)
    rintro ⟨p, content⟩ ⟨q, content'⟩ hp hq hbefore hpath
    rw [Function.comp_apply, Function.comp_apply, FileSurvey.path_ofText,
      FileSurvey.path_ofText] at hpath
    exact hbefore.ne (Path.joinPlace_injective
      (h.isName_of_append ((hmem p content).mp hp).1)
      (h.isName_of_append ((hmem q content').mp hq).1) hpath)
  · rw [hfiles, List.forall_mem_map]
    intro file hfile
    rw [FileSurvey.path_ofText, hread file hfile]
    exact FileSurvey.describes_ofText _ _
  · exact List.countP_eq_length_filter
  · rw [passed_ofDirectory_iff]
    change (∀ f ∈ survey.files, _) ↔ _
    rw [hfiles, List.forall_mem_map]
    refine forall₂_congr fun file _ => ?_
    exact FileSurvey.failure_ofText_eq_none_iff

/-- A tree with two sources, one of them in a folder; the others have no extension, or another. -/
def smallTree : Directory where
  home := ["w"]
  rows := [(["w", "io"], .folder), (["w", "io", ".c"], .file "/*".toUTF8),
    (["w", "io", "x.h"], .file "/* never closed\n".toUTF8),
    (["w", "main.c"], .file "int x;\n".toUTF8), (["w", "main.c.txt"], .file "/*".toUTF8)]
  ascending := by decide

/-- It is a tree. -/
lemma isTree_smallTree : smallTree.IsTree where
  isName := by decide
  folder := by
    intro row hrow n hn
    simp only [smallTree, List.mem_cons, List.not_mem_nil, or_false] at hrow
    rcases hrow with rfl | rfl | rfl | rfl | rfl <;>
      simp only [List.length_cons, List.length_nil] at hn <;> interval_cases n <;> rfl
  home := by
    intro row hrow hprefix
    exact absurd hprefix (by revert row; decide)

/-- The survey of a small tree has not passed, for one of its two sources cannot be cut; the other
one has one section. -/
theorem ofDirectory_lists_sources_of_smallTree :
    smallTree.IsTree ∧ smallTree.locate "." = .ok ["w"] ∧ smallTree.get? ["w"] = some .folder ∧
      smallTree.CanBeWalked "." ["w"] ∧ (ofDirectory smallTree ".").passed = false ∧
      ⟨"./main.c", 1, 1, none⟩ ∈ (ofDirectory smallTree ".").files := by
  have hroot : smallTree.locate "." = .ok ["w"] := by decide +kernel
  have hwalk : smallTree.CanBeWalked "." ["w"] := by
    intro place content hmem
    simp only [smallTree, List.mem_cons, List.not_mem_nil, or_false, Prod.mk.injEq,
      List.cons_append, List.nil_append, List.cons.injEq, true_and] at hmem
    rcases hmem with ⟨-, h⟩ | ⟨rfl, -⟩ | ⟨rfl, -⟩ | ⟨rfl, -⟩ | ⟨rfl, -⟩
    · cases h
    · decide
    · decide
    · decide
    · decide
  obtain ⟨found, hmem, -, hfiles, -, -, -, hpassed⟩ :=
    ofDirectory_lists_sources isTree_smallTree hroot rfl hwalk
  have hheader : (["io", "x.h"], "/* never closed\n".toUTF8) ∈ found := by
    refine (hmem _ _).mpr ⟨by simp [smallTree], "x.h", rfl, "x", by decide, .inr rfl⟩
  have hmain : (["main.c"], "int x;\n".toUTF8) ∈ found := by
    refine (hmem _ _).mpr ⟨by simp [smallTree], "main.c", rfl, "main", by decide, .inl rfl⟩
  have htext : ∀ place text, (Path.joinPlace "." place).utf8ByteSize ≤ Path.limit →
      Directory.textOf (Path.joinPlace "." place) text.toUTF8 = .ok text := by
    intro place text hsize
    rw [Directory.textOf, if_neg (Nat.not_lt.mpr hsize), Text.readUtf8?_toUTF8]
  refine ⟨isTree_smallTree, hroot, rfl, hwalk, ?_, ?_⟩
  · rw [Bool.eq_false_iff, Ne, hpassed]
    intro hall
    obtain ⟨text, spans, hread, hcut⟩ := hall _ hheader
    rw [htext _ _ (by decide)] at hread
    obtain rfl := Except.ok.inj hread
    have hunclosed : fileSpans (Source.ofFile "/* never closed\n").lines =
        .error (.unterminated Construct.blockComment 1) := by decide +kernel
    rw [hunclosed] at hcut
    contradiction
  · rw [hfiles]
    refine List.mem_map.mpr ⟨_, hmain, ?_⟩
    rw [htext _ _ (by decide)]
    decide +kernel

end Survey

end SectionLedger
