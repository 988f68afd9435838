import Mathlib
import SectionLedger.Proofs.Command.Deletion

/-!
# A ledger that every command loads and saves

Each command loads the ledger, acts, and saves the ledger again if it has changed anything.  Beside
that runs one ledger that is held in memory: it takes the steps that each command takes
(`LedgerCommand.steps`), on the sources that the command reads.  After every command the file holds
what is in memory (`LedgerCommand.holds_execute`), so it does after any run of commands.

It makes no difference where a command saves.  One that is refused saves nothing, and its steps do
nothing; one that fails after an operation has changed the ledger has saved it all the same; and a
deletion saves last, even if it has written its source to the file of the ledger before.
-/

namespace SectionLedger

/-! ### Steps with numbers that fit -/

/-- The numbers of a step fit a machine word: that of its file, and those of the lines of its
source. -/
def Step.FitsWords : Step → Prop
  | ⟨.on file _, source⟩ => file < Text.wordLimit ∧ source.lines.length < Text.wordLimit
  | ⟨.register _, _⟩ => True

/-- A step that looks at no source. -/
def Step.unsourced (op : Operation) : Step := ⟨op, .ofFile ""⟩

/-- The numbers of a ledger fit after steps with numbers that fit. -/
lemma Ledger.FitsWords.runAll {l : Ledger} (h : l.FitsWords) {steps : List Step}
    (hsteps : ∀ step ∈ steps, step.FitsWords) : (Step.runAll l steps).FitsWords := by
  induction steps generalizing l with
  | nil => exact h
  | cons step steps ih =>
    obtain ⟨hstep, hsteps⟩ := List.forall_mem_cons.mp hsteps
    refine ih ?_ hsteps
    obtain ⟨op, source⟩ := step
    cases op with
    | register name => exact h
    | on file op => exact h.run hstep.1 hstep.2 op

namespace LedgerCommand

/-! ### The steps of a command -/

/-- Where a command keeps its sections, if it keeps any. -/
def mark? : LedgerCommand → Option Shelfmark
  | reparse _ mark _ => some mark
  | render _ mark _ => some mark
  | addSection _ _ mark => some mark
  | deleteSection _ _ _ mark => some mark
  | annotate _ _ _ mark _ => some mark
  | kinds _ path => some { path }
  | sections _ _ _ => none
  | scan _ _ => none
  | diagnostics _ _ _ _ => none

/-- The path of the source that a command on a ledger reads, if it reads one. -/
def sourcePath? : LedgerCommand → Option String
  | reparse path _ _ => some path
  | render path _ _ => some path
  | addSection path _ _ => some path
  | deleteSection path _ _ _ => some path
  | _ => none

/-- The steps on a source that is read, if it can be. -/
def reading (w : Workspace) (path : String) (steps : Source → List Step) : List Step :=
  match w.readSource path with
  | .error _ => []
  | .ok source => steps source

/-- The steps of a deletion: the section is removed with its lines, and what is left of the source
is cut again.  Without such a section this happens by force only. -/
def deletionSteps (l : Ledger) (file : FileId) (i : Interval) (force : Bool) (source : Source) :
    List Step :=
  let removed := l.remove file source i
  ⟨.on file (.remove i), source⟩ ::
    match removed.2.2 with
    | .ok true => [⟨.on file .reparse, removed.2.1⟩]
    | .ok false => if force then [⟨.on file .reparse, source.without i⟩] else []
    | .error _ => []

/-- The steps of an annotation with compiler output. -/
def annotationSteps (w : Workspace) (name : String) (listing : Option String) (file : FileId)
    (output : String) : List Step :=
  let ds := Diagnostic.ofOutput name output
  [.unsourced (.on file (.apply (.ofOutcome (listing.any w.directory.has) ds) ds))]

/-- The steps that a command takes on a ledger.  One that cannot read its files takes none. -/
def steps (w : Workspace) (l : Ledger) : LedgerCommand → List Step
  | reparse path mark _ => reading w path fun source => [⟨.on mark.file .reparse, source⟩]
  | render path mark _ => reading w path fun source => [⟨.on mark.file .decorate, source⟩]
  | addSection path draft mark =>
    reading w path fun source => [⟨.on mark.file (.create draft), source⟩]
  | deleteSection path i force mark => reading w path (deletionSteps l mark.file i force)
  | annotate name stderr listing mark _ =>
    match w.readText stderr with
    | .error _ => []
    | .ok output => annotationSteps w name listing mark.file output
  | kinds (some name) _ => [.unsourced (.register name)]
  | kinds none _ => []
  | sections _ _ _ => []
  | scan _ _ => []
  | diagnostics _ _ _ _ => []

section Steps

variable {w : Workspace} {path : String} {i : Interval} {force : Bool} {file : FileId}
  {source : Source} {l : Ledger}

/-- The steps on a source that is read. -/
lemma reading_of_ok (h : w.readSource path = .ok source) (steps : Source → List Step) :
    reading w path steps = steps source := by
  rw [reading, h]

/-- There are none on a source that cannot be read. -/
lemma reading_of_error {fault : Fault} (h : w.readSource path = .error fault)
    (steps : Source → List Step) : reading w path steps = [] := by
  rw [reading, h]

/-- Steps on a source that is read, on files and with sources that fit. -/
lemma fitsWords_of_mem_reading {steps : Source → List Step}
    (h : ∀ source, w.readSource path = .ok source → ∀ step ∈ steps source, step.FitsWords) :
    ∀ step ∈ reading w path steps, step.FitsWords := by
  cases hread : w.readSource path with
  | error fault =>
    rw [reading_of_error hread]
    exact fun step hstep => absurd hstep List.not_mem_nil
  | ok source =>
    rw [reading_of_ok hread]
    exact h source hread

/-- Lines that are wanted gone are taken out, and what is left is cut again. -/
lemma runAll_deletionSteps_of_wanted (hcovers : source.Covers i)
    (hwanted : (l.shelf file).hasInterval i = true ∨ force = true) :
    Step.runAll l (deletionSteps l file i force source) =
      ((l.delete file i).1.reparse file (source.without i)).1 := by
  have hrange : source.checkRange i = .ok () := Source.checkRange_eq_ok_iff.mpr hcovers
  cases hmatched : (l.shelf file).hasInterval i with
  | true =>
    have hremove : l.remove file source i = ((l.delete file i).1, source.without i, .ok true) := by
      simp only [Ledger.remove, hrange, hmatched, if_true]
    rw [deletionSteps, hremove]
    simp [Step.runAll, Step.run, Operation.run, FileOperation.run, hremove]
  | false =>
    have hforce : force = true := hwanted.resolve_left (by simp [hmatched])
    have hremove : l.remove file source i = (l, source, .ok false) := by
      simp [Ledger.remove, hrange, hmatched]
    rw [deletionSteps, hremove, Ledger.delete_of_not_hasInterval hmatched]
    simp [Step.runAll, Step.run, Operation.run, FileOperation.run, hremove, hforce]

/-- Lines that are not there, or not wanted gone, leave the ledger as it is. -/
lemma runAll_deletionSteps_of_refused
    (hrefused : ¬ source.Covers i ∨ (l.shelf file).hasInterval i = false ∧ force = false) :
    Step.runAll l (deletionSteps l file i force source) = l := by
  by_cases hcovers : source.Covers i
  · have hrange : source.checkRange i = .ok () := Source.checkRange_eq_ok_iff.mpr hcovers
    obtain ⟨hnone, hforce⟩ := hrefused.resolve_left (not_not_intro hcovers)
    have hremove : l.remove file source i = (l, source, .ok false) := by
      simp [Ledger.remove, hrange, hnone]
    rw [deletionSteps, hremove, hforce]
    simp [Step.runAll, Step.run, Operation.run, FileOperation.run, hremove]
  · have hremove : l.remove file source i =
        (l, source, .error (.badRange i.first i.last source.lines.length)) := by
      rw [Ledger.remove, Source.checkRange, if_neg hcovers]
    rw [deletionSteps, hremove]
    simp [Step.runAll, Step.run, Operation.run, FileOperation.run, hremove]

/-- A command keeps its sections at a path, under a number that fits a machine word, if it keeps
any. -/
def KeepsAt (path : String) (c : LedgerCommand) : Prop :=
  ∀ mark ∈ c.mark?, mark.path = path ∧ mark.file < Text.wordLimit

/-- The source that a command on a ledger reads, if it reads one, has no more lines than a machine
word can count. -/
def SourceFits (w : Workspace) (c : LedgerCommand) : Prop :=
  ∀ path ∈ c.sourcePath?, ∀ source, w.readSource path = .ok source →
    source.lines.length < Text.wordLimit

/-- A command that keeps its sections somewhere keeps them there. -/
lemma keepsAt_of_mark? {c : LedgerCommand} {mark : Shelfmark} (h : c.mark? = some mark)
    (hfile : mark.file < Text.wordLimit) : c.KeepsAt mark.path := by
  intro mark' hmark'
  obtain rfl : mark = mark' := Option.some.inj (h.symm.trans hmark')
  exact ⟨rfl, hfile⟩

/-- The source of a command fits if the one at its path does. -/
lemma sourceFits_of_readSource {c : LedgerCommand} (hpath : c.sourcePath? = some path)
    (hread : w.readSource path = .ok source) (hlines : source.lines.length < Text.wordLimit) :
    c.SourceFits w := by
  intro path' hpath' source' hread'
  obtain rfl : path = path' := Option.some.inj (hpath.symm.trans hpath')
  rwa [← Except.ok.inj (hread.symm.trans hread')]

/-- The numbers of the steps of a deletion fit. -/
lemma fitsWords_of_mem_deletionSteps (hfile : file < Text.wordLimit)
    (hlines : source.lines.length < Text.wordLimit) :
    ∀ step ∈ deletionSteps l file i force source, step.FitsWords := by
  have hremove : Step.FitsWords ⟨.on file (.remove i), source⟩ := ⟨hfile, hlines⟩
  have hwithout : source.Covers i → Step.FitsWords ⟨.on file .reparse, source.without i⟩ :=
    fun hcovers => ⟨hfile, (Source.length_lines_without_le hcovers).trans_lt hlines⟩
  unfold deletionSteps Ledger.remove
  rw [Source.checkRange]
  by_cases hcovers : source.Covers i
  · rw [if_pos hcovers]
    cases hmatched : (l.shelf file).hasInterval i with
    | true =>
      simp only [if_true, List.forall_mem_cons]
      exact ⟨hremove, hwithout hcovers, fun step hstep => absurd hstep List.not_mem_nil⟩
    | false =>
      simp only [Bool.false_eq_true, if_false, List.forall_mem_cons]
      refine ⟨hremove, ?_⟩
      split
      · exact List.forall_mem_singleton.mpr (hwithout hcovers)
      · exact fun step hstep => absurd hstep List.not_mem_nil
  · simp only [if_neg hcovers, List.forall_mem_singleton]
    exact hremove

/-- The numbers of the steps of a command fit. -/
lemma fitsWords_of_mem_steps {c : LedgerCommand} (hmark : c.KeepsAt path)
    (hsource : c.SourceFits w) : ∀ step ∈ c.steps w l, step.FitsWords := by
  have hempty : (Source.ofFile "").lines.length < Text.wordLimit := by decide
  have hnone : ∀ step ∈ ([] : List Step), step.FitsWords := fun _ h => absurd h List.not_mem_nil
  cases c with
  | sections path depth format => exact hnone
  | scan path format => exact hnone
  | diagnostics name stderr listing format => exact hnone
  | reparse path mark format =>
    refine fitsWords_of_mem_reading fun source hread => List.forall_mem_singleton.mpr ?_
    exact ⟨(hmark mark rfl).2, hsource path rfl source hread⟩
  | render path mark format =>
    refine fitsWords_of_mem_reading fun source hread => List.forall_mem_singleton.mpr ?_
    exact ⟨(hmark mark rfl).2, hsource path rfl source hread⟩
  | addSection path draft mark =>
    refine fitsWords_of_mem_reading fun source hread => List.forall_mem_singleton.mpr ?_
    exact ⟨(hmark mark rfl).2, hsource path rfl source hread⟩
  | deleteSection path i force mark =>
    refine fitsWords_of_mem_reading fun source hread => ?_
    exact fitsWords_of_mem_deletionSteps (hmark mark rfl).2 (hsource path rfl source hread)
  | annotate name stderr listing mark format =>
    rw [steps]
    cases w.readText stderr with
    | error fault => exact hnone
    | ok output => exact List.forall_mem_singleton.mpr ⟨(hmark mark rfl).2, hempty⟩
  | kinds add path =>
    cases add with
    | none => exact hnone
    | some name => exact List.forall_mem_singleton.mpr trivial

end Steps

end LedgerCommand

/-! ### A ledger that a path holds -/

/-- A path is loaded as a ledger, and what is written there lasts. -/
structure Workspace.Holds (w : Workspace) (path : String) (l : Ledger) : Prop where
  loaded : w.loadLedger path = .ok l
  lasting : w.directory.Lasting path

namespace LedgerCommand

variable {colour : Bool} {w : Workspace} {path ledgerPath : String} {i : Interval} {force : Bool}
  {mark : Shelfmark} {source : Source} {l : Ledger} {c : LedgerCommand}

/-- A ledger whose numbers fit is held by the path that it is saved at. -/
lemma holds_saving (hlasting : w.directory.Lasting path) (hfits : l.FitsWords)
    {next : Workspace → Workspace × Outcome} (hnext : ∀ w', (next w').1 = w') :
    (saving w path l next).1.Holds path l := by
  obtain ⟨w', hwrite⟩ := Workspace.exists_writeText hlasting.writable l.savedText
  have hsave : w.saveLedger path l = .ok w' := hwrite
  rw [saving, hsave]
  simp only [hnext]
  exact ⟨Workspace.loadLedger_of_lasting hsave hfits hlasting,
    Workspace.lasting_of_writeText hwrite hlasting⟩

/-- A source that is cut again leaves its ledger at the path. -/
lemma holds_reparsing (hlasting : w.directory.Lasting mark.path)
    (hfits : (l.reparse mark.file source).1.FitsWords) (next : Ledger → ℕ → Outcome) :
    (reparsing w mark l source next).1.Holds mark.path (l.reparse mark.file source).1 := by
  refine holds_saving hlasting hfits ?_
  intro w'
  cases (l.reparse mark.file source).2 <;> rfl

/-- A deletion that writes its source leaves the ledger at the path, even if the source is written
there as well. -/
lemma holds_finishDeletion (hwritable : w.directory.Writable path)
    (hlasting : w.directory.Lasting mark.path)
    (hfits : (l.reparse mark.file source).1.FitsWords) :
    (finishDeletion w path i mark l source).1.Holds mark.path
      (l.reparse mark.file source).1 := by
  obtain ⟨w', hwrite⟩ := Workspace.exists_writeText hwritable source.fileText
  rw [finishDeletion, hwrite]
  exact holds_reparsing (Workspace.lasting_of_writeText hwrite hlasting) hfits _

/-- A source that can be read is read with the ledger that the path holds. -/
lemma readBoth_of_holds (h : w.Holds ledgerPath l) (hread : w.readSource path = .ok source) :
    w.readBoth path ledgerPath = .ok (source, l) :=
  Workspace.readBoth_eq_ok_iff.mpr ⟨hread, h.loaded⟩

/-- A source that cannot be read is not read with a ledger either. -/
lemma readBoth_of_error {fault : Fault} (hread : w.readSource path = .error fault) :
    w.readBoth path ledgerPath = .error fault := by
  rw [Workspace.readBoth, hread]
  rfl

/-- A command that ends in the workspace it is run in, and whose steps do nothing, leaves the ledger
at the path. -/
lemma holds_of_unchanged (h : w.Holds path l) (hw : (c.execute colour w).1 = w)
    (hl : Step.runAll l (c.steps w l) = l) :
    (c.execute colour w).1.Holds path (Step.runAll l (c.steps w l)) := by
  rwa [hw, hl]

/-- A command that cannot read its source fails, and changes no file. -/
lemma execute_of_unreadable {fault : Fault} (hpath : c.sourcePath? = some path)
    (hread : w.readSource path = .error fault) (colour : Bool) :
    c.execute colour w = (w, failed fault) := by
  cases c <;> simp only [sourcePath?, Option.some.injEq, reduceCtorEq] at hpath <;>
    subst hpath <;> unfold execute <;> dsimp only
  case deleteSection => exact runDeletion_of_unreadable (readBoth_of_error hread)
  all_goals rw [readBoth_of_error hread]

/-- It takes no steps either. -/
lemma steps_of_unreadable {fault : Fault} (hpath : c.sourcePath? = some path)
    (hread : w.readSource path = .error fault) (l : Ledger) : c.steps w l = [] := by
  cases c <;> simp only [sourcePath?, Option.some.injEq, reduceCtorEq] at hpath <;>
    simp only [steps, hpath, reading_of_error hread]

/-- So it leaves the ledger at the path. -/
lemma holds_of_unreadable {fault : Fault} (h : w.Holds ledgerPath l)
    (hpath : c.sourcePath? = some path) (hread : w.readSource path = .error fault) :
    (c.execute colour w).1.Holds ledgerPath (Step.runAll l (c.steps w l)) := by
  refine holds_of_unchanged h ?_ ?_
  · rw [execute_of_unreadable hpath hread]
  · rw [steps_of_unreadable hpath hread]
    rfl

/-- A command that is refused: a section that cannot be added, or lines that are not there or are
no section and not to be deleted by force. -/
def IsRefused (w : Workspace) (l : Ledger) : LedgerCommand → Prop
  | addSection path draft mark => ∃ source fault, w.readSource path = .ok source ∧
      (l.create mark.file source draft).2 = .error fault
  | deleteSection path i force mark => ∃ source, w.readSource path = .ok source ∧
      (¬ source.Covers i ∨ (l.shelf mark.file).hasInterval i = false ∧ force = false)
  | _ => False

/-- A section that is refused is not stored. -/
lemma create_of_refused {file : FileId} {draft : Draft} {fault : Fault}
    (h : (l.create file source draft).2 = .error fault) :
    l.create file source draft = (l, .error fault) := by
  unfold Ledger.create at h ⊢
  split at h
  · contradiction
  · next fault' _ =>
    obtain rfl : fault' = fault := Except.error.inj h
    rfl

/-- A command that is refused fails or says so, changes no file, and its steps do nothing. -/
lemma execute_of_isRefused (colour : Bool) (hmark : ∀ mark ∈ c.mark?, mark.path = ledgerPath)
    (h : w.Holds ledgerPath l) (hrefused : c.IsRefused w l) :
    (c.execute colour w).1 = w ∧ (c.execute colour w).2.exit ≠ 0 ∧
      Step.runAll l (c.steps w l) = l := by
  cases c with
  | addSection path draft mark =>
    obtain rfl := hmark mark rfl
    obtain ⟨source, fault, hread, hcreate⟩ := hrefused
    have hboth := readBoth_of_holds h hread
    have hrun : (execute colour w (.addSection path draft mark)) = (w, failed fault) := by
      unfold execute
      dsimp only
      rw [hboth]
      simp only [create_of_refused hcreate]
    have hsteps : Step.runAll l (steps w l (.addSection path draft mark)) =
        (l.create mark.file source draft).1 := by
      rw [steps, reading_of_ok hread]
      rfl
    rw [hrun, hsteps, create_of_refused hcreate]
    exact ⟨rfl, Nat.succ_ne_zero 1, rfl⟩
  | deleteSection path i force mark =>
    obtain rfl := hmark mark rfl
    obtain ⟨source, hread, hcase⟩ := hrefused
    have hboth := readBoth_of_holds h hread
    have hsteps : Step.runAll l (steps w l (.deleteSection path i force mark)) = l := by
      rw [steps, reading_of_ok hread]
      exact runAll_deletionSteps_of_refused hcase
    rw [hsteps]
    by_cases hcovers : source.Covers i
    · obtain ⟨hnone, hforce⟩ := hcase.resolve_left (not_not_intro hcovers)
      unfold execute
      dsimp only
      rw [runDeletion_of_unmatched hboth hcovers hnone hforce]
      exact ⟨rfl, Nat.one_ne_zero, rfl⟩
    · unfold execute
      dsimp only
      rw [runDeletion_of_not_covers hboth hcovers]
      exact ⟨rfl, Nat.succ_ne_zero 1, rfl⟩
  | _ => exact hrefused.elim

/-- A source that is cut again has its sections stored at the path. -/
lemma holds_reparse {format : Format} (h : w.Holds mark.path l)
    (hfits : (Step.runAll l (steps w l (.reparse path mark format))).FitsWords) :
    (execute colour w (.reparse path mark format)).1.Holds mark.path
      (Step.runAll l (steps w l (.reparse path mark format))) := by
  cases hread : w.readSource path with
  | error fault => exact holds_of_unreadable (c := .reparse path mark format) h rfl hread
  | ok source =>
    have hsteps : Step.runAll l (steps w l (.reparse path mark format)) =
        (l.reparse mark.file source).1 := by
      rw [steps, reading_of_ok hread]
      rfl
    rw [hsteps] at hfits ⊢
    unfold execute
    dsimp only
    rw [readBoth_of_holds h hread]
    exact holds_reparsing h.lasting hfits _

/-- A source that is shown with its sections leaves the ledger at the path. -/
lemma holds_render {format : Format} (h : w.Holds mark.path l) :
    (execute colour w (.render path mark format)).1.Holds mark.path
      (Step.runAll l (steps w l (.render path mark format))) := by
  cases hread : w.readSource path with
  | error fault => exact holds_of_unreadable (c := .render path mark format) h rfl hread
  | ok source =>
    refine holds_of_unchanged h ?_ ?_
    · unfold execute
      dsimp only
      rw [readBoth_of_holds h hread]
    · rw [steps, reading_of_ok hread]
      rfl

/-- A section that is added is stored at the path, and one that is refused is not. -/
lemma holds_addSection {draft : Draft} (h : w.Holds mark.path l)
    (hfits : (Step.runAll l (steps w l (.addSection path draft mark))).FitsWords) :
    (execute colour w (.addSection path draft mark)).1.Holds mark.path
      (Step.runAll l (steps w l (.addSection path draft mark))) := by
  cases hread : w.readSource path with
  | error fault => exact holds_of_unreadable (c := .addSection path draft mark) h rfl hread
  | ok source =>
    have hsteps : Step.runAll l (steps w l (.addSection path draft mark)) =
        (l.create mark.file source draft).1 := by
      rw [steps, reading_of_ok hread]
      rfl
    rw [hsteps] at hfits ⊢
    unfold execute
    dsimp only
    rw [readBoth_of_holds h hread]
    cases hcreate : l.create mark.file source draft with
    | mk l' result =>
      rw [hcreate] at hfits
      cases result with
      | error fault =>
        have hsame := create_of_refused (congrArg Prod.snd hcreate)
        obtain rfl : l = l' := congrArg Prod.fst (hsame.symm.trans hcreate)
        simpa only [hcreate] using h
      | ok s =>
        simp only [hcreate]
        exact holds_saving h.lasting hfits fun w' => rfl

/-- Lines that are deleted are written first, and then the ledger. -/
lemma holds_deleteSection (h : w.Holds mark.path l)
    (hfits : (Step.runAll l (steps w l (.deleteSection path i force mark))).FitsWords) :
    (execute colour w (.deleteSection path i force mark)).1.Holds mark.path
      (Step.runAll l (steps w l (.deleteSection path i force mark))) := by
  cases hread : w.readSource path with
  | error fault => exact holds_of_unreadable (c := .deleteSection path i force mark) h rfl hread
  | ok source =>
    by_cases hcase : ¬ source.Covers i ∨ (l.shelf mark.file).hasInterval i = false ∧ force = false
    · have hmark : ∀ m ∈ mark? (.deleteSection path i force mark), m.path = mark.path := by
        rintro m ⟨⟩
        rfl
      obtain ⟨hw, -, hl⟩ := execute_of_isRefused colour hmark h ⟨source, hread, hcase⟩
      exact holds_of_unchanged h hw hl
    · obtain ⟨hcovers, hwanted⟩ := not_or.mp hcase
      rw [not_not] at hcovers
      rw [not_and_or, Bool.not_eq_false, Bool.not_eq_false] at hwanted
      have hsteps : Step.runAll l (steps w l (.deleteSection path i force mark)) =
          ((l.delete mark.file i).1.reparse mark.file (source.without i)).1 := by
        rw [steps, reading_of_ok hread]
        exact runAll_deletionSteps_of_wanted hcovers hwanted
      rw [hsteps] at hfits ⊢
      unfold execute
      dsimp only
      rw [runDeletion_of_wanted (readBoth_of_holds h hread) hcovers hwanted]
      obtain ⟨text, htext, -⟩ := Workspace.exists_readText_of_readSource hread
      exact holds_finishDeletion (Workspace.writable_of_readText htext) h.lasting hfits

/-- Compiler output that can be read is applied to the ledger, which is stored at the path. -/
lemma holds_annotate {name stderr : String} {listing : Option String} {format : Format}
    (h : w.Holds mark.path l)
    (hfits : (Step.runAll l (steps w l (.annotate name stderr listing mark format))).FitsWords) :
    (execute colour w (.annotate name stderr listing mark format)).1.Holds mark.path
      (Step.runAll l (steps w l (.annotate name stderr listing mark format))) := by
  cases hread : w.readText stderr with
  | error fault =>
    refine holds_of_unchanged h ?_ ?_
    · unfold execute runAnnotation
      dsimp only
      rw [hread]
      rfl
    · rw [steps, hread]
      rfl
  | ok output =>
    have hsteps : Step.runAll l (steps w l (.annotate name stderr listing mark format)) =
        (l.apply mark.file
          (.ofOutcome (listing.any w.directory.has) (Diagnostic.ofOutput name output))
          (Diagnostic.ofOutput name output)).1 := by
      rw [steps, hread]
      rfl
    rw [hsteps] at hfits ⊢
    unfold execute runAnnotation
    dsimp only
    rw [hread, h.loaded]
    exact holds_saving h.lasting hfits fun w' => rfl

/-- A kind that is registered is stored at the path. -/
lemma holds_kinds {add : Option String} (h : w.Holds path l)
    (hfits : (Step.runAll l (steps w l (.kinds add path))).FitsWords) :
    (execute colour w (.kinds add path)).1.Holds path
      (Step.runAll l (steps w l (.kinds add path))) := by
  cases add with
  | none =>
    refine holds_of_unchanged h ?_ rfl
    unfold execute runKinds
    dsimp only
    rw [h.loaded]
  | some name =>
    unfold execute runKinds
    dsimp only
    rw [h.loaded]
    exact holds_saving h.lasting hfits fun w' => rfl

/-- **One command.**  If a path holds a ledger, then after a command that keeps its sections there
it holds the ledger after the steps of the command. -/
theorem holds_execute (h : w.Holds ledgerPath l) (hmark : c.KeepsAt ledgerPath)
    (hsource : c.SourceFits w) (colour : Bool) :
    (c.execute colour w).1.Holds ledgerPath (Step.runAll l (c.steps w l)) := by
  have hfits : (Step.runAll l (c.steps w l)).FitsWords :=
    (Workspace.fitsWords_of_loadLedger h.loaded).runAll (fitsWords_of_mem_steps hmark hsource)
  cases c with
  | sections path depth format =>
    refine holds_of_unchanged h ?_ rfl
    unfold execute
    dsimp only
    split <;> rfl
  | scan path format => exact h
  | diagnostics name stderr listing format => exact h
  | reparse path mark format =>
    obtain rfl := (hmark mark rfl).1
    exact holds_reparse h hfits
  | render path mark format =>
    obtain rfl := (hmark mark rfl).1
    exact holds_render h
  | addSection path draft mark =>
    obtain rfl := (hmark mark rfl).1
    exact holds_addSection h hfits
  | deleteSection path i force mark =>
    obtain rfl := (hmark mark rfl).1
    exact holds_deleteSection h hfits
  | annotate name stderr listing mark format =>
    obtain rfl := (hmark mark rfl).1
    exact holds_annotate h hfits
  | kinds add path =>
    obtain rfl := (hmark { path } rfl).1
    exact holds_kinds h hfits

/-! ### A workspace without a ledger -/

/-- A workspace with a source, and no ledger. -/
def ofSourceText (text : String) : Workspace where
  directory := (Directory.empty ["w"]).set ["w", "m.c"] (.file text.toUTF8)
  programs := []
  now := ⟨0, 0⟩

section OfSourceText

variable (text : String)

/-- A path leads to the same place whatever the source holds. -/
lemma locateFile_ofSourceText {path : String} {place : Place}
    (h : (Directory.empty ["w"]).locateFile path = .ok place) :
    (ofSourceText text).directory.locateFile path = .ok place := by
  have hsource : (Directory.empty ["w"]).get? ["w", "m.c"] ≠ some .folder := nofun
  exact (Directory.KeepsFolders.set hsource _).locateFile h

/-- The file of the source holds the bytes of its text. -/
lemma read_ofSourceText : (ofSourceText text).directory.read "m.c" = .ok text.toUTF8 := by
  have hplace : (Directory.empty ["w"]).locateFile "m.c" = .ok ["w", "m.c"] := by decide +kernel
  exact Directory.read_eq_ok_iff.mpr ⟨_, locateFile_ofSourceText text hplace, .inl rfl⟩

/-- The source is read. -/
lemma readText_ofSourceText : (ofSourceText text).readText "m.c" = .ok text :=
  Workspace.readText_of_read_toUTF8 (read_ofSourceText text)

/-- The ledger is missing, and can be saved. -/
lemma loadLedger_ofSourceText :
    (ofSourceText text).loadLedger "sections.json" = .ok .empty ∧
      (ofSourceText text).directory.Writable "sections.json" := by
  have hempty : (Directory.empty ["w"]).locateFile "sections.json" =
      .ok ["w", "sections.json"] := by decide +kernel
  have hplace := locateFile_ofSourceText text hempty
  have hnone : (ofSourceText text).directory.get? ["w", "sections.json"] = none := rfl
  have hmissing : (ofSourceText text).directory.has "sections.json" = false := by
    rw [Directory.has, Directory.find, (Directory.locateFile_eq_ok_iff.mp hplace).2]
    simp only [bind, Except.bind, hnone]
    rfl
  refine ⟨?_, ["w", "sections.json"], hplace, ?_⟩
  · rw [Workspace.loadLedger, hmissing]
    rfl
  · rw [hnone]
    exact (Option.some_ne_none _).symm

end OfSourceText

/-! ### Runs of commands -/

/-- The workspace after some commands. -/
def executeAll (colour : Bool) (w : Workspace) (cs : List LedgerCommand) : Workspace :=
  cs.foldl (fun w c => (c.execute colour w).1) w

/-- The steps that some commands take on a ledger that is held in memory, while they are run on a
workspace. -/
def stepsAll (colour : Bool) : Workspace → Ledger → List LedgerCommand → List Step
  | _, _, [] => []
  | w, l, c :: cs =>
    c.steps w l ++ stepsAll colour (c.execute colour w).1 (Step.runAll l (c.steps w l)) cs

/-- No command reads a source with more lines than a machine word can count. -/
def SourcesFit (colour : Bool) : Workspace → List LedgerCommand → Prop
  | _, [] => True
  | w, c :: cs => c.SourceFits w ∧ SourcesFit colour (c.execute colour w).1 cs

/-- The sources of the first commands fit if those of all commands do. -/
lemma SourcesFit.of_append {cs cs' : List LedgerCommand} (h : SourcesFit colour w (cs ++ cs')) :
    SourcesFit colour w cs := by
  induction cs generalizing w with
  | nil => trivial
  | cons c cs ih => exact ⟨h.1, ih h.2⟩

/-- A path that holds a ledger holds it after the steps of some commands when these have been
run. -/
lemma holds_executeAll {cs : List LedgerCommand} (h : w.Holds path l)
    (hmarks : ∀ c ∈ cs, c.KeepsAt path) (hsources : SourcesFit colour w cs) :
    (executeAll colour w cs).Holds path (Step.runAll l (stepsAll colour w l cs)) := by
  induction cs generalizing w l with
  | nil => exact h
  | cons c cs ih =>
    obtain ⟨hmark, hmarks⟩ := List.forall_mem_cons.mp hmarks
    obtain ⟨hsource, hsources⟩ := hsources
    have hrest := ih (holds_execute h hmark hsource colour) hmarks hsources
    have hsteps : Step.runAll l (stepsAll colour w l (c :: cs)) =
        Step.runAll (Step.runAll l (c.steps w l))
          (stepsAll colour (c.execute colour w).1 (Step.runAll l (c.steps w l)) cs) :=
      List.foldl_append
    rw [hsteps]
    exact hrest

/-- **What is loaded is what one ledger in memory would be.**  After commands that keep their
sections at one path, the ledger that is loaded from there is the ledger that was loaded before
them, which may be missing, after the steps of all the commands.  A command that is refused
changes no file, and its steps do nothing. -/
theorem loadLedger_executeAll {cs : List LedgerCommand} (hload : w.loadLedger path = .ok l)
    (hwritable : w.directory.Writable path) (hmarks : ∀ c ∈ cs, c.KeepsAt path)
    (hsources : SourcesFit colour w cs) :
    (executeAll colour w cs).loadLedger path = .ok (Step.runAll l (stepsAll colour w l cs)) ∧
    ∀ before c behind, cs = before ++ c :: behind →
      let now := executeAll colour w before
      let held := Step.runAll l (stepsAll colour w l before)
      c.IsRefused now held →
        (c.execute colour now).1 = now ∧ (c.execute colour now).2.exit ≠ 0 ∧
          Step.runAll held (c.steps now held) = held := by
  have hholds : w.Holds path l := ⟨hload, Workspace.lasting_of_loadLedger hload hwritable⟩
  refine ⟨(holds_executeAll hholds hmarks hsources).loaded, ?_⟩
  rintro before c behind rfl now held hrefused
  have hbefore : ∀ c ∈ before, c.KeepsAt path :=
    fun c hc => hmarks c (List.mem_append_left _ hc)
  have hmark : ∀ mark ∈ c.mark?, mark.path = path :=
    fun mark hm => (hmarks c (by simp) mark hm).1
  exact execute_of_isRefused colour hmark
    (holds_executeAll hholds hbefore hsources.of_append) hrefused

/-- Lines deleted by force from a file that has no section leave the sections of the lines that are
left. -/
lemma runAll_deletionSteps_of_empty {file : FileId} {spans : List Span} (hcovers : source.Covers i)
    (hcut : fileSpans (source.without i).lines = .ok spans) :
    Step.runAll .empty (deletionSteps .empty file i true source) =
      Ledger.empty.withShelf file (spans.map (Ledger.parsedSection file (source.without i))) := by
  have hkinds : ∀ kind ∈ Kind.builtin, Ledger.empty.kinds.contains kind = true := by decide
  rw [runAll_deletionSteps_of_wanted hcovers (.inr rfl), Ledger.delete_of_not_hasInterval rfl,
    Ledger.reparse_of_ok hkinds hcut]
  exact Ledger.withShelf_withShelf _ _ _ _

/-- Where there is no ledger yet, a section beyond the end of the source is refused, its last line
is deleted by force, and a kind is registered: the ledger that is loaded afterwards has the kind and
the section that is left. -/
theorem loadLedger_executeAll_of_missing_ledger :
    let w := ofSourceText "int x;\n// tail\n"
    let cs : List LedgerCommand :=
      [.addSection "m.c" { span := ⟨⟨1, 9⟩, Kind.comment⟩ } {},
        .deleteSection "m.c" ⟨2, 2⟩ true {}, .kinds (some "macro") "sections.json"]
    w.loadLedger "sections.json" = .ok .empty ∧ w.directory.Writable "sections.json" ∧
      (∀ c ∈ cs, c.KeepsAt "sections.json") ∧ SourcesFit false w cs ∧
      ∃ loaded, (executeAll false w cs).loadLedger "sections.json" = .ok loaded ∧
        loaded.kinds.contains "macro" = true ∧
        loaded.shelf 1 =
          [Ledger.parsedSection 1 ⟨["int x;"], true⟩ ⟨⟨1, 1⟩, Kind.variableDecl⟩] := by
  intro w cs
  obtain ⟨hload, hwritable⟩ := loadLedger_ofSourceText "int x;\n// tail\n"
  have hread : w.readSource "m.c" = .ok ⟨["int x;", "// tail"], true⟩ := by
    have hsource : Source.ofFile "int x;\n// tail\n" = ⟨["int x;", "// tail"], true⟩ := by
      decide +kernel
    rw [Workspace.readSource_of_readText (readText_ofSourceText _), hsource]
  have hmarks : ∀ c ∈ cs, c.KeepsAt "sections.json" := by
    have hmark : ∀ c ∈ cs, c.mark? = some {} := by decide
    exact fun c hc => keepsAt_of_mark? (hmark c hc) (by decide)
  -- the first command is refused
  have hholds : w.Holds "sections.json" .empty :=
    ⟨hload, Workspace.lasting_of_loadLedger hload hwritable⟩
  have hrefused : IsRefused w .empty (.addSection "m.c" { span := ⟨⟨1, 9⟩, Kind.comment⟩ } {}) :=
    ⟨_, .badRange 1 9 2, hread, rfl⟩
  obtain ⟨hfirst, -, hnothing⟩ := execute_of_isRefused false
    (fun mark hm => (hmarks _ List.mem_cons_self mark hm).1) hholds hrefused
  have hsources : SourcesFit false w cs := by
    refine ⟨sourceFits_of_readSource rfl hread (by decide), ?_, nofun, trivial⟩
    rw [hfirst]
    exact sourceFits_of_readSource rfl hread (by decide)
  -- and the second one leaves one line
  have hdeletion : Step.runAll .empty (steps w .empty (.deleteSection "m.c" ⟨2, 2⟩ true {})) =
      (Ledger.empty.withShelf 1
        [Ledger.parsedSection 1 ⟨["int x;"], true⟩ ⟨⟨1, 1⟩, Kind.variableDecl⟩]) := by
    have hcut : fileSpans (Source.without ⟨["int x;", "// tail"], true⟩ ⟨2, 2⟩).lines =
        .ok [⟨⟨1, 1⟩, Kind.variableDecl⟩] := by decide +kernel
    rw [steps, reading_of_ok hread]
    exact runAll_deletionSteps_of_empty (by decide) hcut
  have hsteps : Step.runAll .empty (stepsAll false w .empty cs) =
      (Ledger.empty.withShelf 1 [Ledger.parsedSection 1 ⟨["int x;"], true⟩
        ⟨⟨1, 1⟩, Kind.variableDecl⟩]).register "macro" := by
    simp only [cs, stepsAll, Step.runAll, List.foldl_append] at hnothing hdeletion ⊢
    rw [hfirst, hnothing, hdeletion]
    rfl
  refine ⟨hload, hwritable, hmarks, hsources, _,
    (loadLedger_executeAll hload hwritable hmarks hsources).1, ?_⟩
  rw [hsteps]
  exact ⟨by decide, Ledger.shelf_withShelf_self _ _ _⟩

end LedgerCommand

end SectionLedger
