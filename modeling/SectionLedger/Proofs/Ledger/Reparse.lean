import Mathlib
import SectionLedger.Ledger.Basic
import SectionLedger.Proofs.Ledger.Batch
import SectionLedger.Proofs.Ledger.Effect
import SectionLedger.Proofs.Segmentation.Nested

/-!
# Reparsing a file

A file is reparsed by emptying its shelf and storing the spans of its source one by one.  None of
them is refused: the spans are a laminar cut (`nestedSpans_laminarCut`), and the test that the shelf
makes on two intervals fails exactly for those that are apart or strictly nested
(`Interval.clashesWith_eq_false_iff`).  So a source that can be cut always ends on the shelf whole,
and one that cannot leaves the ledger alone.  Only a ledger that has lost built-in kinds may stop
before the last span (`Ledger.reparse_cases`).
-/

namespace SectionLedger

/-- Two spans of a laminar cut do not clash. -/
lemma LaminarCut.pairwise_clashesWith {depth offset count : ℕ} {spans : List Span}
    (h : LaminarCut depth offset count spans) :
    spans.Pairwise fun s t => s.toInterval.clashesWith t.toInterval = false := by
  refine h.compatible.imp_of_mem fun {s t} hs ht hst => ?_
  have hs' := h.within s hs
  have ht' := h.within t ht
  exact (Interval.clashesWith_eq_false_iff hs'.2.1 ht'.2.1).mpr hst

/-- The spans of a whole file are ranges of its lines. -/
lemma LaminarCut.covers {depth : ℕ} {source : Source} {spans : List Span}
    (h : LaminarCut depth 0 source.lines.length spans) {s : Span} (hs : s ∈ spans) :
    source.Covers s.toInterval := by
  obtain ⟨h1, h2, h3⟩ := h.within s hs
  rw [Nat.zero_add] at h1 h3
  exact ⟨h1, h2, h3⟩

namespace Ledger

variable {l : Ledger} {file : FileId} {source : Source}

/-- What reparsing stores for a span: a section without name, description and verdict. -/
def parsedSection (file : FileId) (source : Source) (s : Span) : Section :=
  { toSpan := s, file, status := none, statusData := "",
    snapshot := "\n".intercalate ((source.lines.take s.last).drop (s.first - 1)),
    name := "", description := "" }

/-- The sections of spans that are stored as drafts. -/
lemma map_sectionOf_spans (kinds : Registry) (file : FileId) (source : Source)
    (spans : List Span) :
    (spans.map fun span => ({ span } : Draft)).map (Desk.sectionOf ⟨kinds, file, source⟩) =
      spans.map (parsedSection file source) := by
  rw [List.map_map]
  refine List.map_congr_left fun s _ => ?_
  rw [Function.comp_apply, Desk.sectionOf, Source.excerpt_eq_intercalate]
  rfl

/-- A source that cannot be cut leaves the ledger as it is. -/
lemma reparse_of_error {fault : Fault} (h : fileSpans source.lines = .error fault) :
    l.reparse file source = (l, .error fault) := by
  rw [reparse, h]

/-- The spans of a source that can be cut are all stored, in their order, on an empty shelf. -/
lemma reparse_of_ok (hkinds : ∀ kind ∈ Kind.builtin, l.kinds.contains kind = true)
    {spans : List Span} (h : fileSpans source.lines = .ok spans) :
    l.reparse file source =
      ((l.clear file).withShelf file (spans.map (parsedSection file source)),
        .ok spans.length) := by
  have hcut : LaminarCut fileDepth 0 source.lines.length spans := nestedSpans_laminarCut h
  have hstore : Shelf.store ⟨l.kinds, file, source⟩ []
      (spans.map fun span => ({ span } : Draft)) =
        (spans.map (parsedSection file source), .ok spans.length) := by
    rw [Shelf.store_eq_of_admissible]
    · rw [List.nil_append, map_sectionOf_spans, List.length_map]
    · simp only [List.forall_mem_map]
      exact fun s hs => hcut.covers hs
    · simp only [List.forall_mem_map]
      exact fun s hs => hkinds _ (hcut.builtin s hs)
    · simp
    · rw [List.pairwise_map]
      exact hcut.pairwise_clashesWith
  have hshelf : (l.clear file).shelf file = [] := shelf_withShelf_self l file []
  have hdesk : (l.clear file).desk file source = ⟨l.kinds, file, source⟩ := rfl
  rw [reparse, h]
  simp only [insert, hshelf, hdesk, hstore]

/-- Whatever kinds are registered, the spans of a source that can be cut are stored on an empty
shelf in their order, up to the first that is refused. -/
lemma reparse_cases (l : Ledger) (file : FileId) {spans : List Span}
    (h : fileSpans source.lines = .ok spans) :
    l.reparse file source =
        (l.withShelf file (spans.map (parsedSection file source)), .ok spans.length) ∨
      ∃ n fault, l.reparse file source =
        (l.withShelf file ((spans.take n).map (parsedSection file source)), .error fault) := by
  have hshelf : (l.clear file).shelf file = [] := shelf_withShelf_self l file []
  have hdesk : (l.clear file).desk file source = ⟨l.kinds, file, source⟩ := rfl
  have hclear : ∀ shelf, (l.clear file).withShelf file shelf = l.withShelf file shelf :=
    l.withShelf_withShelf file []
  rw [reparse, h]
  simp only [insert, hshelf, hdesk, hclear]
  rcases Shelf.store_cases .nil ⟨l.kinds, file, source⟩ (spans.map fun span => ({ span } : Draft))
    with ⟨-, hstore⟩ | ⟨before, draft, after, fault, hsplit, -, -, hstore⟩
  · left
    rw [hstore, List.nil_append, map_sectionOf_spans, List.length_map]
  · right
    have hbefore : before = (spans.take before.length).map fun span => ({ span } : Draft) := by
      rw [List.map_take, hsplit, List.take_left]
    refine ⟨before.length, fault, ?_⟩
    rw [hstore, List.nil_append, ← map_sectionOf_spans l.kinds, ← hbefore]

/-- **Reparsing succeeds exactly when the source can be cut.**  Its only fault is that of the cut,
which leaves the ledger as it was; otherwise the file's sections are those of the cut, in its order,
whatever was stored before. -/
theorem reparse_replaces_sections (l : Ledger) (file : FileId) (source : Source)
    (hkinds : ∀ kind ∈ Kind.builtin, l.kinds.contains kind = true) :
    ((∃ n, (l.reparse file source).2 = .ok n) ↔ ∃ spans, fileSpans source.lines = .ok spans) ∧
    (∀ fault, (l.reparse file source).2 = .error fault →
      fileSpans source.lines = .error fault ∧
      (∃ construct line, fault = .unterminated construct line) ∧
      (l.reparse file source).1 = l) ∧
    (∀ n, (l.reparse file source).2 = .ok n → ∃ spans, fileSpans source.lines = .ok spans ∧
      n = spans.length ∧
      (l.reparse file source).1.shelf file = spans.map (parsedSection file source)) ∧
    ∀ l' : Ledger, (∀ kind ∈ Kind.builtin, l'.kinds.contains kind = true) →
      ∀ n, (l.reparse file source).2 = .ok n → (l'.reparse file source).2 = .ok n ∧
        (l'.reparse file source).1.shelf file = (l.reparse file source).1.shelf file := by
  cases hcut : fileSpans source.lines with
  | error fault =>
    rw [reparse_of_error hcut]
    refine ⟨by simp, fun fault' h => ?_, by simp, by simp⟩
    obtain rfl : fault = fault' := Except.error.inj h
    exact ⟨rfl, exists_unterminated_of_nestedSpans hcut, rfl⟩
  | ok spans =>
    rw [reparse_of_ok hkinds hcut]
    refine ⟨by simp, by simp, fun n h => ?_, fun l' hkinds' n h => ?_⟩
    · obtain rfl : spans.length = n := Except.ok.inj h
      exact ⟨spans, rfl, rfl, shelf_withShelf_self _ _ _⟩
    · rw [reparse_of_ok hkinds' hcut]
      exact ⟨h, by rw [shelf_withShelf_self, shelf_withShelf_self]⟩

/-- A stale section that would clash with the procedure gives way to the two spans of the file. -/
theorem reparse_over_stale_section :
    (∀ kind ∈ Kind.builtin, (Ledger.empty.insert 7 ⟨["int f() \x7b", "  int x;", "\x7d"], false⟩
      [{ span := ⟨⟨2, 3⟩, Kind.comment⟩ }]).1.kinds.contains kind = true) ∧
    ((Ledger.empty.insert 7 ⟨["int f() \x7b", "  int x;", "\x7d"], false⟩
      [{ span := ⟨⟨2, 3⟩, Kind.comment⟩ }]).1.reparse 7
        ⟨["int f() \x7b", "  int x;", "\x7d"], false⟩).1.shelf 7 =
      [parsedSection 7 ⟨["int f() \x7b", "  int x;", "\x7d"], false⟩ ⟨⟨1, 3⟩, Kind.procedure⟩,
        parsedSection 7 ⟨["int f() \x7b", "  int x;", "\x7d"], false⟩
          ⟨⟨2, 2⟩, Kind.variableDecl⟩] := by
  have hcut : fileSpans ["int f() \x7b", "  int x;", "\x7d"] =
      .ok [⟨⟨1, 3⟩, Kind.procedure⟩, ⟨⟨2, 2⟩, Kind.variableDecl⟩] := by decide +kernel
  have hkinds : ∀ kind ∈ Kind.builtin,
      (Ledger.empty.insert 7 ⟨["int f() \x7b", "  int x;", "\x7d"], false⟩
        [{ span := ⟨⟨2, 3⟩, Kind.comment⟩ }]).1.kinds.contains kind = true := by decide
  refine ⟨hkinds, ?_⟩
  have hreparse := reparse_replaces_sections _ 7
    ⟨["int f() \x7b", "  int x;", "\x7d"], false⟩ hkinds
  obtain ⟨n, hn⟩ := hreparse.1.mpr ⟨_, hcut⟩
  obtain ⟨spans, hspans, -, hshelf⟩ := hreparse.2.2.1 n hn
  obtain rfl := Except.ok.inj (hcut.symm.trans hspans)
  exact hshelf

end Ledger

end SectionLedger
