import Mathlib
import SectionLedger.Compiler.Report
import SectionLedger.Proofs.Ledger.Verdict
import SectionLedger.Proofs.Text.Lines

/-!
# A report and its ledger describe one compilation

A compilation leaves two things: the report, and the verdicts in the ledger.  Both are made from the
same messages and the same status, so they agree (`Report.Describes`): the status tells whether
there is a listing, and then whether a message is attributed; the listing and the error lines keep
every line of what the compiler wrote; and the sections of the file are judged by the status and the
messages of the report.  A compilation without an outcome leaves the ledger as it is.
-/

namespace SectionLedger

/-! ### The status -/

/-- A file does not compile exactly when there is no listing. -/
lemma Status.ofOutcome_eq_doesNotCompile_iff {hasListing : Bool} {diagnostics : List Diagnostic} :
    Status.ofOutcome hasListing diagnostics = .doesNotCompile ↔ hasListing = false := by
  rw [Status.ofOutcome]
  cases hasListing with
  | false => simp
  | true => by_cases hany : diagnostics.any Diagnostic.isAttributed = true <;> simp [hany]

/-- With a listing, a file compiles with warnings exactly when a message is attributed. -/
lemma Status.ofOutcome_true_eq_compiledWithWarnings_iff {diagnostics : List Diagnostic} :
    Status.ofOutcome true diagnostics = .compiledWithWarnings ↔
      ∃ d ∈ diagnostics, d.isAttributed = true := by
  rw [Status.ofOutcome, ← List.any_eq_true]
  by_cases hany : diagnostics.any Diagnostic.isAttributed = true <;> simp [hany]

/-! ### The lines that the compiler wrote -/

namespace ListingLine

/-- Marking the lines of a listing keeps their code. -/
lemma map_code_mark (name : String) (inBody : Bool) (lines : List (List Char)) :
    (mark name inBody lines).map (·.code) = lines.map String.ofList := by
  induction lines generalizing inBody with
  | nil => rfl
  | cons line lines ih =>
    rw [mark]
    split <;> simp [ih]

/-- The codes of a listing, with a line feed between any two, are the listing. -/
lemma intercalate_code_ofListing (name listing : String) :
    "\n".intercalate ((ofListing name listing).map (·.code)) = listing := by
  rw [ofListing, map_code_mark, Text.intercalate_splitLines]

/-- A listing has a line. -/
lemma ofListing_ne_nil (name listing : String) : ofListing name listing ≠ [] := by
  intro h
  have hcode := map_code_mark name true (Text.splitLines listing.toList)
  rw [← ofListing, h] at hcode
  exact Text.splitLines_ne_nil _ (List.map_eq_nil_iff.mp hcode.symm)

end ListingLine

namespace ErrorLine

/-- The texts of error lines, with a line feed between any two, are the output. -/
lemma intercalate_text_ofOutput (name output : String) :
    "\n".intercalate ((ofOutput name output).map (·.text)) = output := by
  rw [ofOutput, List.map_map]
  exact Text.intercalate_splitLines output

/-- Output has a line. -/
lemma ofOutput_ne_nil (name output : String) : ofOutput name output ≠ [] := by
  rw [ofOutput]
  simpa using Text.splitLines_ne_nil _

end ErrorLine

/-! ### One section -/

namespace Section

variable {s : Section} {status : Status} {diagnostics : List Diagnostic}

/-- A section has a message exactly when an attributed one is about one of its lines. -/
lemma messages_ne_nil_iff : s.messages diagnostics ≠ [] ↔
    ∃ d ∈ diagnostics, d.isAttributed = true ∧ s.containsLine d.line = true := by
  rw [messages_eq_filter, List.filter_filter, ne_eq, List.filter_eq_nil_iff]
  simp [and_comm]

/-- A judged section has the status of the compilation if a message concerns it. -/
lemma status_judged_of_messages (h : s.messages diagnostics ≠ []) :
    (s.judged status diagnostics).status = some status := by
  rw [judged, if_neg h]
  rfl

/-- A judged section has the status of the compilation or the residual one. -/
lemma status_judged (s : Section) (status : Status) (diagnostics : List Diagnostic) :
    (s.judged status diagnostics).status = some status ∨
      (s.judged status diagnostics).status = some status.residual := by
  by_cases h : s.messages diagnostics = []
  · rw [judged, if_pos h]
    exact .inr rfl
  · exact .inl (status_judged_of_messages h)

/-- A judgement leaves the lines of a section as they are. -/
lemma judged_toSpan (s : Section) (status : Status) (diagnostics : List Diagnostic) :
    (s.judged status diagnostics).toSpan = s.toSpan := by
  rw [judged]
  split <;> rfl

end Section

/-! ### The report and the ledger -/

/-- A report on a compilation of a file describes what the compiler made of it, and what has become
of the ledger. -/
structure Report.Describes (request : Request) (file : FileId) (before : Ledger) (a : Artifacts)
    (after : Ledger) (r : Report) : Prop where
  diagnostics_eq : r.diagnostics = Diagnostic.ofOutput request.sourceName a.stderr
  /-- The file does not compile exactly when there is no listing. -/
  doesNotCompile_iff : r.status = .doesNotCompile ↔ a.listing = none
  /-- With a listing, there are warnings exactly when a message is attributed. -/
  compiledWithWarnings_iff : a.listing ≠ none →
    (r.status = .compiledWithWarnings ↔ ∃ d ∈ r.diagnostics, d.isAttributed = true)
  /-- Either the listing is given or the error lines are, as the file compiled or not. -/
  listing_ne_nil_iff : r.listing ≠ [] ↔ r.compiled = true
  errorLines_ne_nil_iff : r.errorLines ≠ [] ↔ r.compiled = false
  /-- What is given has every line that the compiler wrote. -/
  listing_text : ∀ listing, a.listing = some listing →
    "\n".intercalate (r.listing.map (·.code)) = listing
  errorLines_text : a.listing = none → "\n".intercalate (r.errorLines.map (·.text)) = a.stderr
  annotation_status : r.annotation.status = r.status
  annotation_applied : r.annotation.applied = r.diagnostics.countP (·.isAttributed)
  /-- Every section of the file is judged by the status and the messages of the report. -/
  shelf_eq : after.shelf file = (before.shelf file).map fun s => s.judged r.status r.diagnostics
  status_mem : ∀ s ∈ after.shelf file, s.status = some r.status ∨ s.status = some r.status.residual
  status_of_message : ∀ s ∈ after.shelf file, ∀ d ∈ r.diagnostics, d.isAttributed = true →
    s.containsLine d.line = true → s.status = some r.status
  /-- Nothing else changes. -/
  shelf_other : ∀ other, other ≠ file → after.shelf other = before.shelf other
  kinds_eq : after.kinds = before.kinds

namespace Ledger

/-- What a compiler made of a file is described by its report. -/
lemma applyArtifacts_describes (l : Ledger) (file : FileId) (request : Request) (time : Instant)
    (a : Artifacts) :
    (l.applyArtifacts file request time a).2.Describes request file l a
      (l.applyArtifacts file request time a).1 := by
  have hshelf : (l.applyArtifacts file request time a).1.shelf file =
      (l.shelf file).map fun s =>
        s.judged (l.applyArtifacts file request time a).2.status
          (l.applyArtifacts file request time a).2.diagnostics := by
    rw [applyArtifacts, apply, shelf_withShelf_self, Shelf.apply_fst]
  have hcompiled : (l.applyArtifacts file request time a).2.compiled = a.listing.isSome := by
    rw [Report.compiled, Bool.eq_iff_iff, bne_iff_ne, ne_eq, applyArtifacts,
      Status.ofOutcome_eq_doesNotCompile_iff, Bool.not_eq_false]
  exact {
    diagnostics_eq := rfl
    doesNotCompile_iff := by
      rw [applyArtifacts, Status.ofOutcome_eq_doesNotCompile_iff, Option.isSome_eq_false_iff,
        Option.isNone_iff_eq_none]
    compiledWithWarnings_iff := by
      intro hlisting
      have hsome : a.listing.isSome = true := Option.isSome_iff_ne_none.mpr hlisting
      rw [applyArtifacts, hsome, Status.ofOutcome_true_eq_compiledWithWarnings_iff]
    listing_ne_nil_iff := by
      rw [hcompiled, applyArtifacts]
      cases a.listing with
      | none => simp
      | some listing => simpa using ListingLine.ofListing_ne_nil _ _
    errorLines_ne_nil_iff := by
      rw [hcompiled, applyArtifacts]
      cases a.listing with
      | none => simpa using ErrorLine.ofOutput_ne_nil _ _
      | some listing => simp
    listing_text := by
      intro listing hlisting
      rw [applyArtifacts, hlisting]
      exact ListingLine.intercalate_code_ofListing _ listing
    errorLines_text := by
      intro hlisting
      rw [applyArtifacts, hlisting]
      exact ErrorLine.intercalate_text_ofOutput _ a.stderr
    annotation_status := rfl
    annotation_applied := by rw [applyArtifacts, apply, Shelf.apply_snd]
    shelf_eq := hshelf
    status_mem := by
      rw [hshelf, List.forall_mem_map]
      exact fun s _ => s.status_judged _ _
    status_of_message := by
      rw [hshelf, List.forall_mem_map]
      intro s _ d hd hattributed hline
      rw [Section.judged_toSpan] at hline
      exact Section.status_judged_of_messages (Section.messages_ne_nil_iff.mpr
        ⟨d, hd, hattributed, hline⟩)
    shelf_other := fun other hne => shelf_withShelf_other l hne.symm _
    kinds_eq := rfl }

/-- **The report and the ledger describe one compilation.**  A compilation without an outcome leaves
the ledger as it is; any other is described by its report: what the compiler wrote, the status, and
the verdict on every section of the file. -/
theorem compile_report_describes (l : Ledger) (backend : Backend) (request : Request)
    (file : FileId) (source : Source) (time : Instant) :
    (∀ fault, (l.compile backend request file source time).2 = .error fault →
      backend request source.text = .error fault ∧
        (l.compile backend request file source time).1 = l) ∧
    (∀ r, (l.compile backend request file source time).2 = .ok r →
      ∃ a, backend request source.text = .ok a ∧
        r.Describes request file l a (l.compile backend request file source time).1) := by
  rw [compile]
  cases backend request source.text with
  | error fault =>
    refine ⟨fun fault' h => ?_, fun r h => ?_⟩
    · obtain rfl : fault = fault' := Except.error.inj h
      exact ⟨rfl, rfl⟩
    · contradiction
  | ok a =>
    refine ⟨fun fault h => ?_, fun r h => ?_⟩
    · contradiction
    · obtain rfl := Except.ok.inj h
      exact ⟨a, rfl, l.applyArtifacts_describes file request time a⟩

end Ledger

end SectionLedger
