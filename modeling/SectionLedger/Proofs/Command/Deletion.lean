import Mathlib
import SectionLedger.Command.Ledger
import SectionLedger.Proofs.Command.Workspace
import SectionLedger.Proofs.Ledger.Removal

/-!
# Deleting a section with its lines

The command reads a source and a ledger, takes the lines out of the one and the section out of the
other, writes the source, cuts it again and saves the ledger.  `DeletionRun` lists the ways in which
a run can end: three of them touch nothing, and the fourth has written both files.  After that one
the stored sections are those of the file (`Shelf.upToDate_reparse`), for as many of its spans as
have been stored; only when the lines that are left cannot be cut, the sections that did not go stay
behind with the line numbers and the snapshots that they had (`SoundDeletion.uncut`).
-/

namespace SectionLedger

/-! ### Sections that are up to date -/

/-- The sections of a shelf lie in a source, and their snapshots are the lines that they cover
there. -/
def Shelf.UpToDate (source : Source) (shelf : Shelf) : Prop :=
  ∀ s ∈ shelf, source.snapshot s.toInterval = .ok s.snapshot

/-- The snapshot of a range of lines is its text. -/
lemma Source.snapshot_of_covers {source : Source} {i : Interval} (h : source.Covers i) :
    source.snapshot i = .ok (source.excerpt i) := by
  rw [snapshot, checkRange, if_pos h]
  rfl

/-- A source without some of its lines has no more lines. -/
lemma Source.length_lines_without_le {source : Source} {i : Interval} (h : source.Covers i) :
    (source.without i).lines.length ≤ source.lines.length :=
  (Nat.le_add_right _ _).trans_eq (length_lines_without h)

section Parsed

variable {source source' : Source} {spans : List Span} {file : FileId}

/-- Spans of a source are stored as the same sections from a source with the same lines. -/
lemma map_parsedSection_of_sameLines (h : Source.SameLines source.lines source'.lines)
    (hspans : fileSpans source.lines = .ok spans) :
    spans.map (Ledger.parsedSection file source) =
      spans.map (Ledger.parsedSection file source') := by
  have hspans' : fileSpans source'.lines = .ok spans := h.fileSpans_eq ▸ hspans
  refine List.map_congr_left fun s hs => ?_
  have hexcerpt : source.excerpt s.toInterval = source'.excerpt s.toInterval :=
    h.excerpt_eq ((nestedSpans_laminarCut hspans).covers hs)
      ((nestedSpans_laminarCut hspans').covers hs)
  rw [Source.excerpt_eq_intercalate, Source.excerpt_eq_intercalate] at hexcerpt
  rw [Ledger.parsedSection, Ledger.parsedSection, hexcerpt]

/-- The sections of spans of a source are up to date with it. -/
lemma Shelf.upToDate_parsedSections (hspans : fileSpans source.lines = .ok spans)
    {stored : List Span} (hstored : ∀ s ∈ stored, s ∈ spans) :
    Shelf.UpToDate source (stored.map (Ledger.parsedSection file source)) := by
  unfold UpToDate
  rw [List.forall_mem_map]
  intro s hs
  have hcovers := (nestedSpans_laminarCut hspans).covers (hstored s hs)
  rw [show (Ledger.parsedSection file source s).toInterval = s.toInterval from rfl,
    Source.snapshot_of_covers hcovers, Source.excerpt_eq_intercalate]
  rfl

/-- If a source can be cut, a reparse stores the sections of any source with the same lines: all of
them if it succeeds, and otherwise some. -/
lemma exists_shelf_reparse_eq (h : Source.SameLines source'.lines source.lines)
    (hspans : fileSpans source.lines = .ok spans) (l : Ledger) (file : FileId) :
    ∃ stored : List Span, (∀ s ∈ stored, s ∈ spans) ∧
      (l.reparse file source).1.shelf file = stored.map (Ledger.parsedSection file source') ∧
      ∀ n, (l.reparse file source).2 = .ok n → stored = spans := by
  have hparsed : spans.map (Ledger.parsedSection file source) =
      spans.map (Ledger.parsedSection file source') :=
    (map_parsedSection_of_sameLines h (h.fileSpans_eq.trans hspans)).symm
  rcases Ledger.reparse_cases l file hspans with hreparse | ⟨n, fault, hreparse⟩
  · refine ⟨spans, fun s hs => hs, ?_, fun _ _ => rfl⟩
    rw [hreparse, Ledger.shelf_withShelf_self, hparsed]
  · refine ⟨spans.take n, fun s hs => List.mem_of_mem_take hs, ?_, ?_⟩
    · rw [hreparse, Ledger.shelf_withShelf_self, List.map_take, hparsed, ← List.map_take]
    · rw [hreparse]
      nofun

/-- What a reparse stores of a source that can be cut is up to date with any source with the same
lines. -/
lemma Shelf.upToDate_reparse (h : Source.SameLines source'.lines source.lines)
    (hspans : fileSpans source.lines = .ok spans) (l : Ledger) (file : FileId) :
    Shelf.UpToDate source' ((l.reparse file source).1.shelf file) := by
  obtain ⟨stored, hstored, hshelf, -⟩ := exists_shelf_reparse_eq h hspans l file
  rw [hshelf]
  exact upToDate_parsedSections (h.fileSpans_eq.trans hspans) hstored

/-- A reparse that succeeds has cut the source, and any source with the same lines is cut alike: the
stored sections are those of its spans. -/
lemma exists_spans_of_reparse_eq_ok {l : Ledger} {n : ℕ}
    (h : Source.SameLines source'.lines source.lines) (hok : (l.reparse file source).2 = .ok n) :
    ∃ spans, fileSpans source.lines = .ok spans ∧ fileSpans source'.lines = .ok spans ∧
      (l.reparse file source).1.shelf file = spans.map (Ledger.parsedSection file source') := by
  cases hcut : fileSpans source.lines with
  | error fault =>
    rw [Ledger.reparse_of_error hcut] at hok
    contradiction
  | ok spans =>
    obtain ⟨stored, -, hshelf, hall⟩ := exists_shelf_reparse_eq h hcut l file
    obtain rfl := hall n hok
    exact ⟨stored, rfl, h.fileSpans_eq.trans hcut, hshelf⟩

end Parsed

namespace LedgerCommand

variable {w : Workspace} {path : String} {i : Interval} {force : Bool} {mark : Shelfmark}
  {source : Source} {l : Ledger}

/-! ### How a run can end -/

/-- What a deletion leaves besides the workspace, given what came of cutting the source again. -/
def deletionOutcome (i : Interval) : Except Fault ℕ → Outcome
  | .ok n => .shown s!"Deleted lines {i.first}-{i.last}; {n} sections after reparse"
  | .error fault => failed fault

/-- The ways in which a deletion can end. -/
inductive DeletionRun (w : Workspace) (path : String) (i : Interval) (force : Bool)
    (mark : Shelfmark) : Workspace × Outcome → Prop
  /-- The source or the ledger cannot be read. -/
  | unreadable {fault : Fault} (hread : w.readBoth path mark.path = .error fault) :
      DeletionRun w path i force mark (w, failed fault)
  /-- The interval is no range of lines. -/
  | badRange {source : Source} {l : Ledger} (hread : w.readBoth path mark.path = .ok (source, l))
      (hrange : ¬ source.Covers i) :
      DeletionRun w path i force mark
        (w, failed (.badRange i.first i.last source.lines.length))
  /-- There is no such section, and the lines are not to be deleted by force. -/
  | unmatched {source : Source} {l : Ledger} (hread : w.readBoth path mark.path = .ok (source, l))
      (hcovers : source.Covers i) (hnone : (l.shelf mark.file).hasInterval i = false)
      (hforce : force = false) : DeletionRun w path i force mark (w, { exit := 1 })
  /-- The source is written without the lines, and the ledger is saved after the source has been cut
  again. -/
  | written {source : Source} {l : Ledger} {w' : Workspace}
      (hread : w.readBoth path mark.path = .ok (source, l)) (hcovers : source.Covers i)
      (hwanted : (l.shelf mark.file).hasInterval i = true ∨ force = true)
      (hsource : w'.readText path = .ok (source.without i).fileText)
      (hledger : w'.loadLedger mark.path =
        .ok ((l.delete mark.file i).1.reparse mark.file (source.without i)).1) :
      DeletionRun w path i force mark (w', deletionOutcome i
        ((l.delete mark.file i).1.reparse mark.file (source.without i)).2)

/-- A run that cannot read its files touches nothing. -/
lemma runDeletion_of_unreadable {fault : Fault} (hread : w.readBoth path mark.path = .error fault) :
    runDeletion w path i force mark = (w, failed fault) := by
  unfold runDeletion
  rw [hread]

/-- A run on an interval that is no range of lines touches nothing. -/
lemma runDeletion_of_not_covers (hread : w.readBoth path mark.path = .ok (source, l))
    (hrange : ¬ source.Covers i) :
    runDeletion w path i force mark =
      (w, failed (.badRange i.first i.last source.lines.length)) := by
  have hcheck : source.checkRange i = .error (.badRange i.first i.last source.lines.length) := by
    rw [Source.checkRange, if_neg hrange]
  unfold runDeletion
  rw [hread]
  simp only [Ledger.remove, hcheck]

/-- A run on lines that are no section, and are not to be deleted by force, touches nothing. -/
lemma runDeletion_of_unmatched (hread : w.readBoth path mark.path = .ok (source, l))
    (hcovers : source.Covers i) (hnone : (l.shelf mark.file).hasInterval i = false)
    (hforce : force = false) : runDeletion w path i force mark = (w, { exit := 1 }) := by
  have hrange : source.checkRange i = .ok () := Source.checkRange_eq_ok_iff.mpr hcovers
  unfold runDeletion
  rw [hread]
  simp [Ledger.remove, hrange, hnone, hforce]

/-- Once the lines are known to be there and to be wanted gone, a run writes the files. -/
lemma runDeletion_of_wanted (hread : w.readBoth path mark.path = .ok (source, l))
    (hcovers : source.Covers i)
    (hwanted : (l.shelf mark.file).hasInterval i = true ∨ force = true) :
    runDeletion w path i force mark =
      finishDeletion w path i mark (l.delete mark.file i).1 (source.without i) := by
  have hrange : source.checkRange i = .ok () := Source.checkRange_eq_ok_iff.mpr hcovers
  unfold runDeletion
  rw [hread]
  cases hmatched : (l.shelf mark.file).hasInterval i with
  | true => simp only [Ledger.remove, hrange, hmatched, if_true]
  | false =>
    have hforce : force = true := hwanted.resolve_left (by simp [hmatched])
    have hdelete : source.deleteRange i = .ok (source.without i) :=
      Source.deleteRange_eq_ok_iff.mpr ⟨hcovers, rfl⟩
    rw [Ledger.delete_of_not_hasInterval hmatched]
    simp [Ledger.remove, hrange, hmatched, hforce, hdelete]

/-- A run on lines that are wanted gone writes both files: they hold the source without the lines,
and the ledger after it has been cut again. -/
lemma exists_runDeletion_eq (hfile : mark.file < Text.wordLimit)
    (hdistinct : w.directory.Distinct path mark.path)
    (hwritable : w.directory.Writable mark.path)
    (hread : w.readBoth path mark.path = .ok (source, l))
    (hlines : source.lines.length < Text.wordLimit) (hcovers : source.Covers i)
    (hwanted : (l.shelf mark.file).hasInterval i = true ∨ force = true) :
    ∃ w', runDeletion w path i force mark = (w', deletionOutcome i
        ((l.delete mark.file i).1.reparse mark.file (source.without i)).2) ∧
      w'.readText path = .ok (source.without i).fileText ∧
      w'.loadLedger mark.path =
        .ok ((l.delete mark.file i).1.reparse mark.file (source.without i)).1 := by
  obtain ⟨hsource, hledger⟩ := Workspace.readBoth_eq_ok_iff.mp hread
  obtain ⟨text, htext, rfl⟩ := Workspace.exists_readText_of_readSource hsource
  -- the source is written first
  have hempty : text = "" → ((Source.ofFile text).without i).fileText = "" := by
    intro hempty
    exact Source.fileText_without_of_empty (by rw [Source.fileText_ofFile, hempty]) hcovers
  obtain ⟨w₁, hw₁, hread₁⟩ := Workspace.exists_writeText_of_readText htext hempty
  have hlasting₁ := Workspace.lasting_of_writeText hw₁
    (Workspace.lasting_of_loadLedger hledger hwritable)
  have hdistinct₁ := Workspace.distinct_writeText hw₁ hdistinct hwritable
  have hsource₁ : w₁.readText path = .ok ((Source.ofFile text).without i).fileText :=
    Workspace.readText_of_read_toUTF8 hread₁
  -- and then the ledger
  set after := (l.delete mark.file i).1.reparse mark.file ((Source.ofFile text).without i)
    with hafter
  obtain ⟨w₂, hw₂⟩ := Workspace.exists_writeText hlasting₁.writable after.1.savedText
  have hfits : after.1.FitsWords := by
    have hl := (Workspace.fitsWords_of_loadLedger hledger).delete mark.file i
    exact hl.reparse hfile ((Source.length_lines_without_le hcovers).trans_lt hlines)
  have hsource₂ : w₂.readText path = .ok ((Source.ofFile text).without i).fileText :=
    (Workspace.readText_writeText_other hw₂ hdistinct₁
      (Workspace.writable_of_readText hsource₁)).mpr hsource₁
  have hledger₂ : w₂.loadLedger mark.path = .ok after.1 :=
    Workspace.loadLedger_of_lasting hw₂ hfits hlasting₁
  have hrun : runDeletion w path i force mark = (w₂, deletionOutcome i after.2) := by
    have hsave : w₁.saveLedger mark.path after.1 = .ok w₂ := hw₂
    rw [runDeletion_of_wanted hread hcovers hwanted]
    unfold finishDeletion reparsing saving
    rw [hw₁]
    simp only [← hafter, hsave]
    cases after.2 <;> rfl
  exact ⟨w₂, hrun, hsource₂, hledger₂⟩

/-- Every run ends in one of the four ways, if the ledger can be written and is another file than
the source. -/
theorem deletionRun_runDeletion (hfile : mark.file < Text.wordLimit)
    (hdistinct : w.directory.Distinct path mark.path)
    (hwritable : w.directory.Writable mark.path)
    (hlines : ∀ source, w.readSource path = .ok source →
      source.lines.length < Text.wordLimit) :
    DeletionRun w path i force mark (runDeletion w path i force mark) := by
  cases hread : w.readBoth path mark.path with
  | error fault =>
    rw [runDeletion_of_unreadable hread]
    exact .unreadable hread
  | ok both =>
    obtain ⟨source, l⟩ := both
    by_cases hcovers : source.Covers i
    · by_cases hwanted : (l.shelf mark.file).hasInterval i = true ∨ force = true
      · have hsource := (Workspace.readBoth_eq_ok_iff.mp hread).1
        obtain ⟨w', hrun, htext, hledger⟩ := exists_runDeletion_eq hfile hdistinct hwritable hread
          (hlines source hsource) hcovers hwanted
        rw [hrun]
        exact .written hread hcovers hwanted htext hledger
      · obtain ⟨hnone, hforce⟩ := not_or.mp hwanted
        rw [Bool.not_eq_true] at hnone hforce
        rw [runDeletion_of_unmatched hread hcovers hnone hforce]
        exact .unmatched hread hcovers hnone hforce
    · rw [runDeletion_of_not_covers hread hcovers]
      exact .badRange hread hcovers

/-! ### A workspace with two files -/

/-- A workspace with a source and a saved ledger. -/
def ofTexts (source ledger : String) : Workspace where
  directory := ((Directory.empty ["w"]).set ["w", "m.c"] (.file source.toUTF8)).set
    ["w", "sections.json"] (.file ledger.toUTF8)
  programs := []
  now := ⟨0, 0⟩

section OfTexts

variable (text ledger : String)

/-- A path leads to the same place whatever the two files hold. -/
lemma locateFile_ofTexts {path : String} {place : Place}
    (h : (Directory.empty ["w"]).locateFile path = .ok place) :
    (ofTexts text ledger).directory.locateFile path = .ok place := by
  have hsource : (Directory.empty ["w"]).get? ["w", "m.c"] ≠ some .folder := nofun
  have hledger : ((Directory.empty ["w"]).set ["w", "m.c"] (.file text.toUTF8)).get?
      ["w", "sections.json"] ≠ some .folder := nofun
  exact (Directory.KeepsFolders.set hledger _).locateFile
    ((Directory.KeepsFolders.set hsource _).locateFile h)

/-- The source is read. -/
lemma readText_ofTexts_source : (ofTexts text ledger).readText "m.c" = .ok text := by
  have hplace : (Directory.empty ["w"]).locateFile "m.c" = .ok ["w", "m.c"] := by decide +kernel
  exact Workspace.readText_of_read_toUTF8 (Directory.read_eq_ok_iff.mpr
    ⟨_, locateFile_ofTexts text ledger hplace, .inl rfl⟩)

/-- The text of the ledger is read. -/
lemma readText_ofTexts_ledger : (ofTexts text ledger).readText "sections.json" = .ok ledger := by
  have hplace : (Directory.empty ["w"]).locateFile "sections.json" =
      .ok ["w", "sections.json"] := by decide +kernel
  exact Workspace.readText_of_read_toUTF8 (Directory.read_eq_ok_iff.mpr
    ⟨_, locateFile_ofTexts text ledger hplace, .inl rfl⟩)

/-- The source and the ledger are at different places. -/
lemma distinct_ofTexts : (ofTexts text ledger).directory.Distinct "m.c" "sections.json" := by
  have hsource : (Directory.empty ["w"]).locateFile "m.c" = .ok ["w", "m.c"] := by decide +kernel
  have hledger : (Directory.empty ["w"]).locateFile "sections.json" =
      .ok ["w", "sections.json"] := by decide +kernel
  intro place hplace hplace'
  rw [locateFile_ofTexts text ledger hsource] at hplace
  rw [locateFile_ofTexts text ledger hledger] at hplace'
  obtain rfl := Except.ok.inj hplace
  exact absurd (Except.ok.inj hplace') (by decide)

/-- The ledger can be saved. -/
lemma writable_ofTexts : (ofTexts text ledger).directory.Writable "sections.json" :=
  Workspace.writable_of_readText (readText_ofTexts_ledger text ledger)

/-- The source is read as the one that it is the file of. -/
lemma readSource_ofTexts {source : Source} (hfile : Source.ofFile source.fileText = source)
    (ledger : String) : (ofTexts source.fileText ledger).readSource "m.c" = .ok source := by
  rw [Workspace.readSource_of_readText (readText_ofTexts_source _ _), hfile]

/-- The source is read together with the ledger that was saved. -/
lemma readBoth_ofTexts {source : Source} {l : Ledger}
    (hfile : Source.ofFile source.fileText = source) (hfits : l.FitsWords) :
    (ofTexts source.fileText l.savedText).readBoth "m.c" "sections.json" = .ok (source, l) := by
  refine Workspace.readBoth_eq_ok_iff.mpr ⟨readSource_ofTexts hfile _, ?_⟩
  rw [Workspace.loadLedger_of_readText (readText_ofTexts_ledger _ _),
    Ledger.ofSavedText_savedText hfits]

/-- The numbers of lines fit, if those of the source do. -/
lemma length_lines_ofTexts_lt {source : Source} (hfile : Source.ofFile source.fileText = source)
    (hlines : source.lines.length < Text.wordLimit) (ledger : String) :
    ∀ read, (ofTexts source.fileText ledger).readSource "m.c" = .ok read →
      read.lines.length < Text.wordLimit := by
  intro read h
  obtain rfl := Except.ok.inj ((readSource_ofTexts hfile ledger).symm.trans h)
  exact hlines

end OfTexts

/-! ### What a run leaves -/

/-- What a run of the deletion makes of a workspace. -/
structure SoundDeletion (w : Workspace) (path : String) (i : Interval) (force : Bool)
    (mark : Shelfmark) (w' : Workspace) (o : Outcome) : Prop where
  /-- If the source or the ledger cannot be read, everything is left as it was. -/
  unreadable : ∀ fault, w.readBoth path mark.path = .error fault → w' = w ∧ o = failed fault
  /-- So it is if the interval is no range of lines. -/
  badRange : ∀ source l, w.readBoth path mark.path = .ok (source, l) → ¬ source.Covers i →
    w' = w ∧ o = failed (.badRange i.first i.last source.lines.length)
  /-- The exit code is 1 for lines that are no section, if they are not to be deleted by force. -/
  exit_one_iff : ∀ source l, w.readBoth path mark.path = .ok (source, l) → source.Covers i →
    (o.exit = 1 ↔ (l.shelf mark.file).hasInterval i = false ∧ force = false)
  /-- With the exit code 1, everything is left as it was. -/
  unchanged : o.exit = 1 → w' = w
  /-- If the lines are to be deleted, the file has lost them and no others. -/
  written : ∀ source l, w.readBoth path mark.path = .ok (source, l) → source.Covers i →
    (l.shelf mark.file).hasInterval i = true ∨ force = true →
    w'.readText path = .ok (source.without i).fileText
  /-- With the exit code 0, the file has lost the lines and no others, and the stored sections are
  those of the lines that are left, which are those of the file. -/
  completed : o.exit = 0 → ∃ source l source' l' spans,
    w.readBoth path mark.path = .ok (source, l) ∧ source.Covers i ∧
    w'.readText path = .ok (source.without i).fileText ∧
    w'.readBoth path mark.path = .ok (source', l') ∧
    fileSpans (source.without i).lines = .ok spans ∧ fileSpans source'.lines = .ok spans ∧
    l'.shelf mark.file = spans.map (Ledger.parsedSection mark.file source')
  /-- The exit code is 0 for lines that are to be deleted and leave lines that can be cut, if the
  built-in kinds are registered. -/
  completes : ∀ source l spans, w.readBoth path mark.path = .ok (source, l) → source.Covers i →
    (l.shelf mark.file).hasInterval i = true ∨ force = true →
    (∀ kind ∈ Kind.builtin, l.kinds.contains kind = true) →
    fileSpans (source.without i).lines = .ok spans → o.exit = 0
  /-- If the lines are to be deleted and those that are left cannot be cut, the run fails for the
  construct that does not end.  In the ledger just the sections of the interval are gone: the others
  stay as they were. -/
  uncut : ∀ source l fault, w.readBoth path mark.path = .ok (source, l) → source.Covers i →
    (l.shelf mark.file).hasInterval i = true ∨ force = true →
    fileSpans (source.without i).lines = .error fault →
    (∃ construct line, fault = .unterminated construct line) ∧ o = failed fault ∧
    w'.loadLedger mark.path = .ok (l.withShelf mark.file
      ((l.shelf mark.file).filter fun s => s.toInterval != i))
  /-- In every other case, sections that are up to date are so again. -/
  upToDate : ∀ source l, w.readBoth path mark.path = .ok (source, l) →
    (l.shelf mark.file).UpToDate source →
    (source.Covers i → (l.shelf mark.file).hasInterval i = true ∨ force = true →
      ∃ spans, fileSpans (source.without i).lines = .ok spans) →
    ∃ source' l', w'.readBoth path mark.path = .ok (source', l') ∧
      (l'.shelf mark.file).UpToDate source'

/-- A deletion that has written the files does not end with the exit code 1. -/
lemma exit_deletionOutcome_ne_one (i : Interval) (result : Except Fault ℕ) :
    (deletionOutcome i result).exit ≠ 1 := by
  cases result with
  | ok n => exact Nat.zero_ne_one
  | error fault => exact Nat.succ_ne_self 1

/-- It ends with the exit code 0 if the source has been cut again. -/
lemma exit_deletionOutcome_eq_zero_iff {result : Except Fault ℕ} :
    (deletionOutcome i result).exit = 0 ↔ ∃ n, result = .ok n := by
  cases result with
  | ok n => exact iff_of_true rfl ⟨n, rfl⟩
  | error fault => exact iff_of_false (Nat.succ_ne_zero 1) nofun

/-- A source and a ledger are read in one way only. -/
lemma eq_of_readBoth {source₀ : Source} {l₀ : Ledger}
    (hread : w.readBoth path mark.path = .ok (source, l))
    (h : w.readBoth path mark.path = .ok (source₀, l₀)) : source₀ = source ∧ l₀ = l :=
  Prod.mk.inj (Except.ok.inj (h.symm.trans hread))

/-- Lines that are to be deleted are a section, or are to be deleted by force. -/
lemma not_unmatched (hwanted : (l.shelf mark.file).hasInterval i = true ∨ force = true) :
    ¬ ((l.shelf mark.file).hasInterval i = false ∧ force = false) := by
  rintro ⟨hnone, hforce⟩
  rw [hnone, hforce] at hwanted
  simp at hwanted

/-- The lines that are left of a file are read back from what is written. -/
lemma sameLines_without (hread : w.readBoth path mark.path = .ok (source, l)) (i : Interval) :
    Source.SameLines (Source.ofFile (source.without i).fileText).lines
      (source.without i).lines := by
  obtain ⟨text, -, rfl⟩ :=
    Workspace.exists_readText_of_readSource (Workspace.readBoth_eq_ok_iff.mp hread).1
  exact Source.sameLines_ofFile_fileText ((Source.isSplit_ofFile text).without i)

/-- A deletion that has written the files is sound. -/
lemma soundDeletion_of_written {w' : Workspace}
    (hread : w.readBoth path mark.path = .ok (source, l)) (hcovers : source.Covers i)
    (hwanted : (l.shelf mark.file).hasInterval i = true ∨ force = true)
    (hsource : w'.readText path = .ok (source.without i).fileText)
    (hledger : w'.loadLedger mark.path =
      .ok ((l.delete mark.file i).1.reparse mark.file (source.without i)).1) :
    SoundDeletion w path i force mark w' (deletionOutcome i
      ((l.delete mark.file i).1.reparse mark.file (source.without i)).2) := by
  have hsame := sameLines_without hread i
  have hread' := Workspace.readBoth_eq_ok_iff.mpr
    ⟨Workspace.readSource_of_readText hsource, hledger⟩
  exact {
    unreadable := by
      intro fault h
      rw [hread] at h
      contradiction
    badRange := by
      intro source₀ l₀ h hrange
      obtain ⟨rfl, -⟩ := eq_of_readBoth hread h
      exact absurd hcovers hrange
    exit_one_iff := by
      intro source₀ l₀ h _
      obtain ⟨-, rfl⟩ := eq_of_readBoth hread h
      exact iff_of_false (exit_deletionOutcome_ne_one i _) (not_unmatched hwanted)
    unchanged := fun h => absurd h (exit_deletionOutcome_ne_one i _)
    written := by
      intro source₀ l₀ h _ _
      obtain ⟨rfl, -⟩ := eq_of_readBoth hread h
      exact hsource
    completed := by
      intro hexit
      obtain ⟨n, hn⟩ := exit_deletionOutcome_eq_zero_iff.mp hexit
      obtain ⟨spans, hcut, hcut', hshelf⟩ := exists_spans_of_reparse_eq_ok hsame hn
      exact ⟨source, l, _, _, spans, hread, hcovers, hsource, hread', hcut, hcut', hshelf⟩
    completes := by
      intro source₀ l₀ spans h _ _ hkinds hcut
      obtain ⟨rfl, rfl⟩ := eq_of_readBoth hread h
      have hkinds' : ∀ kind ∈ Kind.builtin, (l₀.delete mark.file i).1.kinds.contains kind = true :=
        hkinds
      rw [Ledger.reparse_of_ok hkinds' hcut]
      rfl
    uncut := by
      intro source₀ l₀ fault h _ _ hcut
      obtain ⟨rfl, rfl⟩ := eq_of_readBoth hread h
      rw [Ledger.reparse_of_error hcut] at hledger ⊢
      exact ⟨exists_unterminated_of_nestedSpans hcut, rfl, hledger⟩
    upToDate := by
      intro source₀ l₀ h _ hcut
      obtain ⟨rfl, rfl⟩ := eq_of_readBoth hread h
      obtain ⟨spans, hcut⟩ := hcut hcovers hwanted
      exact ⟨_, _, hread', Shelf.upToDate_reparse hsame hcut _ _⟩ }

/-- A deletion that leaves everything as it was is sound, if it has a reason and its exit code says
which. -/
lemma soundDeletion_of_unchanged {o : Outcome} (hexit : o.exit ≠ 0)
    (hunreadable : ∀ fault, w.readBoth path mark.path = .error fault → o = failed fault)
    (hrange : ∀ source l, w.readBoth path mark.path = .ok (source, l) → ¬ source.Covers i →
      o = failed (.badRange i.first i.last source.lines.length))
    (hnone : ∀ source l, w.readBoth path mark.path = .ok (source, l) → source.Covers i →
      o.exit = 1 ∧ (l.shelf mark.file).hasInterval i = false ∧ force = false) :
    SoundDeletion w path i force mark w o where
  unreadable fault h := ⟨rfl, hunreadable fault h⟩
  badRange source l h hcovers := ⟨rfl, hrange source l h hcovers⟩
  exit_one_iff source l h hcovers := by
    obtain ⟨hone, hunmatched⟩ := hnone source l h hcovers
    exact iff_of_true hone hunmatched
  unchanged _ := rfl
  written source l h hcovers hwanted := absurd (hnone source l h hcovers).2 (not_unmatched hwanted)
  completed h := absurd h hexit
  completes source l spans h hcovers hwanted :=
    absurd (hnone source l h hcovers).2 (not_unmatched hwanted)
  uncut source l fault h hcovers hwanted :=
    absurd (hnone source l h hcovers).2 (not_unmatched hwanted)
  upToDate source l h hup _ := ⟨source, l, h, hup⟩

/-- **A deletion is sound.**  A run that cannot read its files, or has no lines to delete, leaves
everything as it was.  Otherwise the file loses exactly the lines.  If the lines that are left can
be cut, the sections that are stored for the file are up to date again; if not, the run fails, and
the ledger keeps the sections that did not go as they were. -/
theorem execute_deleteSection_sound (colour : Bool) {w : Workspace} {path : String} {i : Interval}
    {force : Bool} {mark : Shelfmark} (hfile : mark.file < Text.wordLimit)
    (hdistinct : w.directory.Distinct path mark.path)
    (hwritable : w.directory.Writable mark.path)
    (hlines : ∀ source, w.readSource path = .ok source →
      source.lines.length < Text.wordLimit) :
    SoundDeletion w path i force mark (execute colour w (.deleteSection path i force mark)).1
      (execute colour w (.deleteSection path i force mark)).2 := by
  have hrun : DeletionRun w path i force mark
      (execute colour w (.deleteSection path i force mark)) :=
    deletionRun_runDeletion hfile hdistinct hwritable hlines
  generalize execute colour w (.deleteSection path i force mark) = run at hrun
  cases hrun with
  | unreadable hread =>
    refine soundDeletion_of_unchanged (Nat.succ_ne_zero 1) ?_ ?_ ?_
    · intro fault h
      rw [Except.error.inj (hread.symm.trans h)]
    · intro source l h
      rw [hread] at h
      contradiction
    · intro source l h
      rw [hread] at h
      contradiction
  | badRange hread hrange =>
    refine soundDeletion_of_unchanged (Nat.succ_ne_zero 1) ?_ ?_ ?_
    · intro fault h
      rw [hread] at h
      contradiction
    · intro source l h _
      obtain ⟨rfl, -⟩ := eq_of_readBoth hread h
      rfl
    · intro source l h hcovers
      obtain ⟨rfl, -⟩ := eq_of_readBoth hread h
      exact absurd hcovers hrange
  | unmatched hread hcovers hnone hforce =>
    refine soundDeletion_of_unchanged Nat.one_ne_zero ?_ ?_ ?_
    · intro fault h
      rw [hread] at h
      contradiction
    · intro source l h hrange
      obtain ⟨rfl, -⟩ := eq_of_readBoth hread h
      exact absurd hcovers hrange
    · intro source l h _
      obtain ⟨-, rfl⟩ := eq_of_readBoth hread h
      exact ⟨rfl, hnone, hforce⟩
  | written hread hcovers hwanted hsource hledger =>
    exact soundDeletion_of_written hread hcovers hwanted hsource hledger

/-- A procedure, and a comment after it. -/
def tailSource : Source := ⟨["int f(void) \x7b", "\x7d", "// tail"], true⟩

/-- The ledger that has the comment. -/
def tailLedger : Ledger :=
  Ledger.empty.withShelf 1 [Ledger.parsedSection 1 tailSource ⟨⟨3, 3⟩, Kind.comment⟩]

/-- The ledger that has the last line of the procedure as well. -/
def endLedger : Ledger :=
  Ledger.empty.withShelf 1 [Ledger.parsedSection 1 tailSource ⟨⟨2, 2⟩, Kind.comment⟩,
    Ledger.parsedSection 1 tailSource ⟨⟨3, 3⟩, Kind.comment⟩]

/-- The procedure that has lost its last line cannot be cut. -/
lemma fileSpans_without_tailSource :
    fileSpans (tailSource.without ⟨2, 2⟩).lines = .error (.unterminated .procedureBody 1) := by
  decide +kernel

/-- The lines are those of the file that they are written to. -/
lemma ofFile_fileText_tailSource : Source.ofFile tailSource.fileText = tailSource := by
  decide +kernel

/-- The numbers of the ledger with the comment fit. -/
lemma fitsWords_tailLedger : tailLedger.FitsWords := by
  refine Ledger.fitsWords_empty.withShelf (by decide) (List.forall_mem_singleton.mpr ?_)
  exact ⟨by decide, by decide, by decide⟩

/-- So do those of the ledger with both. -/
lemma fitsWords_endLedger : endLedger.FitsWords := by
  refine Ledger.fitsWords_empty.withShelf (by decide)
    (List.forall_mem_cons.mpr ⟨?_, List.forall_mem_singleton.mpr ?_⟩)
  · exact ⟨by decide, by decide, by decide⟩
  · exact ⟨by decide, by decide, by decide⟩

/-- The sections of the ledger with both. -/
lemma shelf_endLedger : endLedger.shelf 1 =
    [Ledger.parsedSection 1 tailSource ⟨⟨2, 2⟩, Kind.comment⟩,
      Ledger.parsedSection 1 tailSource ⟨⟨3, 3⟩, Kind.comment⟩] :=
  Ledger.shelf_withShelf_self _ _ _

/-- Without the last line of the procedure, it is the ledger with the comment. -/
lemma withShelf_filter_endLedger :
    endLedger.withShelf 1 ((endLedger.shelf 1).filter fun s => s.toInterval != ⟨2, 2⟩) =
      tailLedger := by
  rw [shelf_endLedger]
  exact Ledger.withShelf_withShelf _ _ _ _

/-- By force, a declaration goes from a file that has not been cut before.  The section of the last
line of a procedure goes with its line, and the section of the comment behind keeps a line number
that the file has no more. -/
theorem execute_deleteSection_of_declaration_and_of_last_line :
    (let source : Source := ⟨["int x;", "// a"], true⟩
      let w := ofTexts source.fileText Ledger.empty.savedText
      let run := execute false w (.deleteSection "m.c" ⟨1, 1⟩ true {})
      w.directory.Distinct "m.c" "sections.json" ∧ w.directory.Writable "sections.json" ∧
        (∀ source, w.readSource "m.c" = .ok source → source.lines.length < Text.wordLimit) ∧
        SoundDeletion w "m.c" ⟨1, 1⟩ true {} run.1 run.2 ∧ run.2.exit = 0) ∧
    (let w := ofTexts tailSource.fileText endLedger.savedText
      let run := execute false w (.deleteSection "m.c" ⟨2, 2⟩ false {})
      w.directory.Distinct "m.c" "sections.json" ∧ w.directory.Writable "sections.json" ∧
        (∀ source, w.readSource "m.c" = .ok source → source.lines.length < Text.wordLimit) ∧
        SoundDeletion w "m.c" ⟨2, 2⟩ false {} run.1 run.2 ∧
        run.2 = failed (.unterminated .procedureBody 1) ∧
        run.1.readText "m.c" = .ok "int f(void) \x7b\n// tail\n" ∧
        run.1.loadLedger "sections.json" = .ok tailLedger) := by
  constructor
  · intro source w run
    have hfile : Source.ofFile source.fileText = source := by decide +kernel
    have hdistinct : w.directory.Distinct "m.c" "sections.json" := distinct_ofTexts _ _
    have hwritable : w.directory.Writable "sections.json" := writable_ofTexts _ _
    have hlines : ∀ source, w.readSource "m.c" = .ok source →
        source.lines.length < Text.wordLimit :=
      length_lines_ofTexts_lt hfile (by decide) _
    have hread : w.readBoth "m.c" "sections.json" = .ok (source, .empty) :=
      readBoth_ofTexts hfile Ledger.fitsWords_empty
    have hcut : fileSpans (source.without ⟨1, 1⟩).lines = .ok [⟨⟨1, 1⟩, Kind.comment⟩] := by
      decide +kernel
    -- from here on it does not matter how the files are written
    clear_value w
    have hsound : SoundDeletion w "m.c" ⟨1, 1⟩ true {} run.1 run.2 :=
      execute_deleteSection_sound false (by decide) hdistinct hwritable hlines
    exact ⟨hdistinct, hwritable, hlines, hsound,
      hsound.completes _ _ _ hread (by decide) (.inr rfl) (by decide) hcut⟩
  · intro w run
    have hdistinct : w.directory.Distinct "m.c" "sections.json" := distinct_ofTexts _ _
    have hwritable : w.directory.Writable "sections.json" := writable_ofTexts _ _
    have hlines : ∀ source, w.readSource "m.c" = .ok source →
        source.lines.length < Text.wordLimit :=
      length_lines_ofTexts_lt ofFile_fileText_tailSource (by decide) _
    have hread : w.readBoth "m.c" "sections.json" = .ok (tailSource, endLedger) :=
      readBoth_ofTexts ofFile_fileText_tailSource fitsWords_endLedger
    have htext : (tailSource.without ⟨2, 2⟩).fileText = "int f(void) \x7b\n// tail\n" := by
      decide +kernel
    clear_value w
    have hsound : SoundDeletion w "m.c" ⟨2, 2⟩ false {} run.1 run.2 :=
      execute_deleteSection_sound false (by decide) hdistinct hwritable hlines
    have hthere : (endLedger.shelf 1).hasInterval ⟨2, 2⟩ = true := by
      rw [shelf_endLedger]
      rfl
    obtain ⟨-, hfailed, hledger⟩ := hsound.uncut _ _ _ hread (by decide) (.inl hthere)
      fileSpans_without_tailSource
    refine ⟨hdistinct, hwritable, hlines, hsound, hfailed, ?_, ?_⟩
    · rw [← htext]
      exact hsound.written _ _ hread (by decide) (.inl hthere)
    · rw [← withShelf_filter_endLedger]
      exact hledger

/-- Where the lines that are left cannot be cut, a section that is not that of the lines stays,
whether or not it is up to date. -/
lemma exists_stale_section (hfile : mark.file < Text.wordLimit)
    (hdistinct : w.directory.Distinct path mark.path)
    (hwritable : w.directory.Writable mark.path)
    (hread : w.readBoth path mark.path = .ok (source, l))
    (hlines : source.lines.length < Text.wordLimit) (hcovers : source.Covers i)
    (hwanted : (l.shelf mark.file).hasInterval i = true ∨ force = true) {fault : Fault}
    (hcut : fileSpans (source.without i).lines = .error fault) {s : Section}
    (hs : s ∈ l.shelf mark.file) (hother : s.toInterval ≠ i)
    (hstale : (Source.ofFile (source.without i).fileText).snapshot s.toInterval ≠
      .ok s.snapshot) :
    ∃ source' l', (runDeletion w path i force mark).1.readBoth path mark.path =
      .ok (source', l') ∧ ¬ (l'.shelf mark.file).UpToDate source' := by
  obtain ⟨w', hrun, htext, hledger⟩ :=
    exists_runDeletion_eq hfile hdistinct hwritable hread hlines hcovers hwanted
  have hread' := Workspace.readBoth_eq_ok_iff.mpr
    ⟨Workspace.readSource_of_readText htext, hledger⟩
  have hstays : s ∈ (l.delete mark.file i).1.shelf mark.file := by
    rw [Ledger.delete, Ledger.shelf_withShelf_self]
    exact List.mem_filter.mpr ⟨hs, by simpa using hother⟩
  rw [hrun]
  refine ⟨_, _, hread', ?_⟩
  rw [Ledger.reparse_of_error hcut]
  exact fun hup => hstale (hup s hstays)

/-- A procedure that loses its last line cannot be cut any more, and the ledger keeps a section
that ends after the file does. -/
lemma not_upToDate_of_unfinished_procedure :
    let w := ofTexts tailSource.fileText tailLedger.savedText
    w.readBoth "m.c" "sections.json" = .ok (tailSource, tailLedger) ∧
      (tailLedger.shelf 1).UpToDate tailSource ∧
      ∃ source' l', (execute false w (.deleteSection "m.c" ⟨2, 2⟩ true {})).1.readBoth "m.c"
        "sections.json" = .ok (source', l') ∧ ¬ (l'.shelf 1).UpToDate source' := by
  intro w
  have hstale : (Source.ofFile (tailSource.without ⟨2, 2⟩).fileText).snapshot ⟨3, 3⟩ ≠
      .ok "// tail" := by decide +kernel
  have hshelf : tailLedger.shelf 1 = [Ledger.parsedSection 1 tailSource ⟨⟨3, 3⟩, Kind.comment⟩] :=
    Ledger.shelf_withShelf_self _ _ _
  have hup : (tailLedger.shelf 1).UpToDate tailSource := by
    rw [hshelf]
    exact List.forall_mem_singleton.mpr (by decide)
  have hmem : Ledger.parsedSection 1 tailSource ⟨⟨3, 3⟩, Kind.comment⟩ ∈ tailLedger.shelf 1 :=
    hshelf ▸ List.mem_singleton_self _
  have hread := readBoth_ofTexts ofFile_fileText_tailSource fitsWords_tailLedger
  exact ⟨hread, hup, exists_stale_section (by decide) (distinct_ofTexts _ _) (writable_ofTexts _ _)
    hread (by decide) (by decide) (.inr rfl) fileSpans_without_tailSource hmem (by decide) hstale⟩

/-- Where the source is the file of the ledger, the saved ledger takes the place of the lines that
are left. -/
lemma exists_runDeletion_eq_of_same_file
    (hread : w.readBoth mark.path mark.path = .ok (source, l)) (hcovers : source.Covers i)
    (hwanted : (l.shelf mark.file).hasInterval i = true ∨ force = true)
    (hleft : (source.without i).fileText ≠ "") {after : Ledger × Except Fault ℕ}
    (hafter : (l.delete mark.file i).1.reparse mark.file (source.without i) = after) :
    ∃ w', runDeletion w mark.path i force mark = (w', deletionOutcome i after.2) ∧
      w'.readText mark.path = .ok after.1.savedText := by
  obtain ⟨hsource, hledger⟩ := Workspace.readBoth_eq_ok_iff.mp hread
  obtain ⟨text, htext, -⟩ := Workspace.exists_readText_of_readSource hsource
  have hnonempty : text ≠ "" := by
    rintro rfl
    exact Workspace.readText_ne_empty_of_loadLedger hledger htext
  have hempty₁ : text = "" → (source.without i).fileText = "" :=
    fun hempty => absurd hempty hnonempty
  obtain ⟨w₁, hw₁, hread₁⟩ := Workspace.exists_writeText_of_readText htext hempty₁
  have hempty₂ : (source.without i).fileText = "" → after.1.savedText = "" :=
    fun hempty => absurd hempty hleft
  obtain ⟨w₂, hw₂, hread₂⟩ := Workspace.exists_writeText_of_readText
    (Workspace.readText_of_read_toUTF8 hread₁) hempty₂
  refine ⟨w₂, ?_, Workspace.readText_of_read_toUTF8 hread₂⟩
  have hsave : w₁.saveLedger mark.path after.1 = .ok w₂ := hw₂
  rw [runDeletion_of_wanted hread hcovers hwanted]
  unfold finishDeletion reparsing saving
  rw [hw₁]
  simp only [hafter, hsave]
  cases after.2 <;> rfl

/-- The lines of the ledger without sections, as it is saved. -/
def emptyLedgerSource : Source :=
  ⟨["\x7b", "  \"kinds\": \x7b", "    \"names\": [", "      \"assembly\",", "      \"comment\",",
    "      \"directive\",", "      \"procedure\",", "      \"variable\"", "    ]", "  \x7d,",
    "  \"files\": \x7b\x7d", "\x7d"], false⟩

/-- The ledger without sections is saved as these lines. -/
lemma fileText_emptyLedgerSource : emptyLedgerSource.fileText = Ledger.empty.savedText := by
  decide +kernel

/-- These lines are those of the file that they are written to. -/
lemma ofFile_fileText_emptyLedgerSource :
    Source.ofFile emptyLedgerSource.fileText = emptyLedgerSource := by decide +kernel

/-- None of these lines begins a section. -/
lemma fileSpans_without_emptyLedgerSource :
    fileSpans (emptyLedgerSource.without ⟨1, 1⟩).lines = .ok [] := by decide +kernel

/-- A line that is deleted from the file of the ledger is back when the ledger has been saved. -/
lemma readText_ne_of_ledger_as_source :
    let w := ofTexts "" emptyLedgerSource.fileText
    let run := execute false w (.deleteSection "sections.json" ⟨1, 1⟩ true {})
    w.readBoth "sections.json" "sections.json" = .ok (emptyLedgerSource, .empty) ∧
      (Ledger.empty.shelf 1).UpToDate emptyLedgerSource ∧ run.2.exit = 0 ∧
      run.1.readText "sections.json" ≠ .ok (emptyLedgerSource.without ⟨1, 1⟩).fileText := by
  intro w run
  have hsaved : w.readText "sections.json" = .ok emptyLedgerSource.fileText :=
    readText_ofTexts_ledger _ _
  have hsource : w.readSource "sections.json" = .ok emptyLedgerSource := by
    rw [Workspace.readSource_of_readText hsaved, ofFile_fileText_emptyLedgerSource]
  have hload : w.loadLedger "sections.json" = .ok .empty := by
    rw [Workspace.loadLedger_of_readText hsaved, fileText_emptyLedgerSource,
      Ledger.ofSavedText_savedText Ledger.fitsWords_empty]
  have hread := Workspace.readBoth_eq_ok_iff.mpr ⟨hsource, hload⟩
  have hkinds : ∀ kind ∈ Kind.builtin, Ledger.empty.kinds.contains kind = true := by decide
  have hafter : (Ledger.empty.delete 1 ⟨1, 1⟩).1.reparse 1 (emptyLedgerSource.without ⟨1, 1⟩) =
      (.empty, .ok 0) := by
    have hnone : (Ledger.empty.shelf 1).hasInterval ⟨1, 1⟩ = false := rfl
    rw [Ledger.delete_of_not_hasInterval hnone,
      Ledger.reparse_of_ok hkinds fileSpans_without_emptyLedgerSource]
    rfl
  have hcovers : emptyLedgerSource.Covers ⟨1, 1⟩ := by decide
  have hleft : (emptyLedgerSource.without ⟨1, 1⟩).fileText ≠ "" := by decide +kernel
  have hchanged : Ledger.empty.savedText ≠ (emptyLedgerSource.without ⟨1, 1⟩).fileText := by
    rw [← fileText_emptyLedgerSource]
    decide +kernel
  have hup : (Ledger.empty.shelf 1).UpToDate emptyLedgerSource :=
    fun s hs => absurd hs List.not_mem_nil
  -- from here on it does not matter which ledger it is
  clear_value w
  generalize Ledger.empty = l at hread hafter hchanged hup ⊢
  obtain ⟨w', hrun, htext⟩ := @exists_runDeletion_eq_of_same_file w ⟨1, 1⟩ true {}
    emptyLedgerSource l hread hcovers (.inr rfl) hleft _ hafter
  have hexecute : run = (w', deletionOutcome ⟨1, 1⟩ (.ok 0)) := hrun
  rw [hexecute]
  exact ⟨hread, hup, rfl, fun h => hchanged (Except.ok.inj (htext.symm.trans h))⟩

/-- A deletion need not leave the sections of a file up to date, and the file need not have lost the
lines: the lines that are left may hold a procedure without its end, and the file may be that of the
ledger. -/
theorem deleteSection_not_always_exact :
    (let w := ofTexts tailSource.fileText tailLedger.savedText;
      w.readBoth "m.c" "sections.json" = .ok (tailSource, tailLedger) ∧
        (tailLedger.shelf 1).UpToDate tailSource ∧
        ∃ source' l', (execute false w (.deleteSection "m.c" ⟨2, 2⟩ true {})).1.readBoth "m.c"
          "sections.json" = .ok (source', l') ∧ ¬ (l'.shelf 1).UpToDate source') ∧
    (let w := ofTexts "" emptyLedgerSource.fileText
      let run := execute false w (.deleteSection "sections.json" ⟨1, 1⟩ true {})
      w.readBoth "sections.json" "sections.json" = .ok (emptyLedgerSource, .empty) ∧
        (Ledger.empty.shelf 1).UpToDate emptyLedgerSource ∧ run.2.exit = 0 ∧
        run.1.readText "sections.json" ≠ .ok (emptyLedgerSource.without ⟨1, 1⟩).fileText) :=
  ⟨not_upToDate_of_unfinished_procedure, readText_ne_of_ledger_as_source⟩

end LedgerCommand

end SectionLedger
