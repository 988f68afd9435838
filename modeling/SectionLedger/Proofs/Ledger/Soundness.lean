import Mathlib
import SectionLedger.Proofs.Ledger.Laminar

/-!
# What every run keeps

A section is *sound* when it belongs to its file, covers lines of the file's source, has a
registered kind, still holds the lines it covers, and has messages only with a verdict, the last one
closed by a comma (`Section.Sound`).  A shelf is sound when its sections are and any two differ at
both ends and are apart or strictly nested (`Shelf.Sound`).

A sound shelf is laminar, and a laminar shelf of sound sections is sound.  So only the sections have
to be looked at: whatever an operation does, also one that is refused halfway through a batch, some
sections stay with other verdicts (`Shelf.Sound.kept`), and others are admitted behind them
(`Shelf.Sound.store`).  So every run from a ledger without sections keeps the shelves sound.
-/

namespace SectionLedger

/-- A section in order for its file: the file, the range, the kind, the snapshot and the verdict. -/
structure Section.Sound (kinds : Registry) (file : FileId) (source : Source) (s : Section) :
    Prop where
  file_eq : s.file = file
  /-- The section covers a nonempty range of the lines. -/
  range : 1 ≤ s.first ∧ s.first ≤ s.last ∧ s.last ≤ source.lines.length
  kind_registered : kinds.contains s.kind = true
  /-- The section still holds the lines that it covers. -/
  snapshot_eq : source.snapshot s.toInterval = .ok s.snapshot
  /-- Without a status there are no messages. -/
  pending : s.status = none → s.statusData = ""
  /-- The last message is closed by a comma. -/
  closed : s.statusData ≠ "" → ∃ text, s.statusData = text ++ ","

/-- A shelf of sound sections of which any two differ at both ends and are apart or strictly
nested. -/
structure Shelf.Sound (kinds : Registry) (file : FileId) (source : Source) (shelf : Shelf) :
    Prop where
  sections : ∀ s ∈ shelf, s.Sound kinds file source
  compatible : shelf.Pairwise fun s t => Interval.Compatible s.toInterval t.toInterval

/-- A ledger whose shelves are sound for the sources of their files. -/
def Ledger.Sound (sources : FileId → Source) (l : Ledger) : Prop :=
  ∀ file, (l.shelf file).Sound l.kinds file (sources file)

section Sections

variable {kinds : Registry} {file : FileId} {source : Source} {s : Section}

/-! ### Sections -/

namespace Section.Sound

/-- An admitted section is sound. -/
lemma sectionOf {draft : Draft} (hcovers : source.Covers draft.span.toInterval)
    (hkind : kinds.contains draft.span.kind = true) :
    (Desk.sectionOf ⟨kinds, file, source⟩ draft).Sound kinds file source where
  file_eq := rfl
  range := hcovers
  kind_registered := hkind
  snapshot_eq := by
    rw [Source.snapshot, Source.checkRange]
    exact congrArg (· >>= fun _ => pure _) (if_pos hcovers)
  pending _ := rfl
  closed h := absurd rfl h

/-- A section stays sound when its verdict gives way to one in order. -/
lemma withVerdict (h : s.Sound kinds file source) {status : Option Status} {data : String}
    (hpending : status = none → data = "") (hclosed : data ≠ "" → ∃ text, data = text ++ ",") :
    Section.Sound kinds file source { s with status, statusData := data } where
  file_eq := h.file_eq
  range := h.range
  kind_registered := h.kind_registered
  snapshot_eq := h.snapshot_eq
  pending := hpending
  closed := hclosed

/-- A section without its verdict stays sound. -/
lemma reset (h : s.Sound kinds file source) : s.reset.Sound kinds file source :=
  h.withVerdict (fun _ => rfl) fun hne => absurd rfl hne

/-- A section with one more message stays sound. -/
lemma annotate (h : s.Sound kinds file source) (status : Status) (text : String) :
    (s.annotate status text).Sound kinds file source :=
  h.withVerdict (fun hnone => absurd hnone (Option.some_ne_none status))
    fun _ => ⟨s.statusData ++ text, rfl⟩

/-- A section with a status, if it had none, stays sound. -/
lemma settle (h : s.Sound kinds file source) (status : Status) :
    (s.settle status).Sound kinds file source := by
  refine h.withVerdict (fun hnone => ?_) h.closed
  cases hs : s.status <;> simp [hs] at hnone

/-- A section stays sound when kinds are registered. -/
lemma register (h : s.Sound kinds file source) (name : String) :
    s.Sound (kinds.register name) file source where
  file_eq := h.file_eq
  range := h.range
  kind_registered := by
    rw [Registry.contains_register, h.kind_registered, Bool.or_true]
  snapshot_eq := h.snapshot_eq
  pending := h.pending
  closed := h.closed

/-- A section stays sound when a mark is left on it. -/
lemma mark (h : s.Sound kinds file source) (m : Mark) : (s.mark m).Sound kinds file source := by
  cases m with
  | reset => exact h.reset
  | append status line text =>
    rw [Section.mark]
    split
    · exact h.annotate status text
    · exact h
  | settle status => exact h.settle status

/-- A section stays sound when marks are replayed. -/
lemma replay (h : s.Sound kinds file source) (marks : List Mark) :
    (s.replay marks).Sound kinds file source := by
  induction marks generalizing s with
  | nil => exact h
  | cons m marks ih => exact ih (h.mark m)

end Section.Sound

/-! ### Shelves -/

namespace Shelf.Sound

variable {shelf : Shelf}

/-- A sound shelf is laminar. -/
lemma laminar (h : shelf.Sound kinds file source) : shelf.Laminar :=
  ⟨fun s hs => (h.sections s hs).range.2.1, h.compatible⟩

/-- What an operation leaves of a sound shelf is sound. -/
lemma kept (h : shelf.Sound kinds file source) (op : FileOperation) (source' : Source) :
    Shelf.Sound kinds file source (op.kept source' shelf) where
  sections := by
    rw [FileOperation.kept, List.forall_mem_map]
    intro s hs
    exact (h.sections s (List.mem_of_mem_filter hs)).replay op.marks
  compatible := ((h.laminar.filter _).replay _).compatible

/-- A sound shelf stays sound when drafts are stored up to the first that is refused. -/
lemma store (h : shelf.Sound kinds file source) (drafts : List Draft) :
    Shelf.Sound kinds file source (Shelf.store ⟨kinds, file, source⟩ shelf drafts).1 where
  sections := forall_mem_store h.sections
    (fun _ hcovers hkind => Section.Sound.sectionOf hcovers hkind) drafts
  compatible := (h.laminar.store _ drafts).compatible

end Shelf.Sound

end Sections

/-! ### Ledgers -/

namespace Ledger.Sound

variable {sources : FileId → Source} {l : Ledger}

/-- A ledger without sections is sound. -/
lemma ofKinds (kinds : Registry) : (Ledger.ofKinds kinds).Sound sources :=
  fun _ => ⟨fun _ hs => absurd hs List.not_mem_nil, .nil⟩

/-- A sound ledger stays sound when a shelf gives way to a sound one. -/
lemma withShelf (h : l.Sound sources) {file : FileId} {shelf : Shelf}
    (hshelf : shelf.Sound l.kinds file (sources file)) :
    (l.withShelf file shelf).Sound sources := by
  intro other
  by_cases heq : file = other
  · subst heq
    rw [shelf_withShelf_self]
    exact hshelf
  · rw [shelf_withShelf_other l heq]
    exact h other

/-- A sound ledger stays sound when kinds are registered. -/
lemma register (h : l.Sound sources) (name : String) : (l.register name).Sound sources :=
  fun file => ⟨fun s hs => ((h file).sections s hs).register name, (h file).compatible⟩

/-- Every operation on a file that is given its source keeps a ledger sound: it leaves a part of the
shelf, with other verdicts, and admits sections behind it. -/
lemma run (h : l.Sound sources) (file : FileId) (op : FileOperation) :
    (op.run file l (sources file)).1.Sound sources := by
  rw [FileOperation.run_fst]
  exact h.withShelf (((h file).kept op (sources file)).store _)

end Ledger.Sound

namespace Operation

variable {sources : FileId → Source} {l : Ledger}

/-- One operation keeps a ledger sound. -/
lemma run_sound (h : l.Sound sources) (op : Operation) : (op.run sources l).1.Sound sources := by
  cases op with
  | on file op => exact h.run file op
  | register name => exact h.register name

/-- A run of operations keeps a ledger sound. -/
lemma runAll_sound (h : l.Sound sources) (ops : List Operation) :
    (runAll sources l ops).Sound sources := by
  induction ops generalizing l with
  | nil => exact h
  | cons op ops ih => exact ih (run_sound h op)

/-- **Every run keeps the shelves sound.**  Whatever operations are run on a ledger that began
without sections, successful or refused, the sections of each file are sound for the source that the
operations on the file are given. -/
theorem runAll_ofKinds_sound (sources : FileId → Source) (kinds : Registry)
    (ops : List Operation) (file : FileId) :
    ((runAll sources (Ledger.ofKinds kinds) ops).shelf file).Sound
      (runAll sources (Ledger.ofKinds kinds) ops).kinds file (sources file) :=
  runAll_sound (Ledger.Sound.ofKinds kinds) ops file

end Operation

end SectionLedger
