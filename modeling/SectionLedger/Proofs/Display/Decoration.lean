import Mathlib
import SectionLedger.Decoration
import SectionLedger.Proofs.Display.Stack

/-!
# What the decorations of lines tell

A line is decorated with the first section that is found to begin on it, and with whether some
section is found to end on it.  On a laminar shelf there is one such section at most, so the
decorations tell all of the sections, in whatever order the shelf has them: each section is seen on
its first line (`Shelf.map_filter_nesting`), its end on its last line (`Shelf.map_filter_closes`),
and nothing else is seen.
-/

namespace SectionLedger

namespace Shelf

variable {shelf shelf' : Shelf} {s : Section} {number n : ℕ} {text : String} {lines : List String}

/-! ### The decoration of a line -/

/-- A decoration has the number of its line. -/
lemma decorateLine_line (shelf : Shelf) (n : ℕ) (text : String) :
    (decorateLine shelf n text).line = n := by
  unfold decorateLine
  split <;> rfl

/-- A decoration has the text of its line. -/
lemma decorateLine_text (shelf : Shelf) (n : ℕ) (text : String) :
    (decorateLine shelf n text).text = text := by
  unfold decorateLine
  split <;> rfl

/-- A line closes a section exactly when one ends on it. -/
lemma decorateLine_closes (shelf : Shelf) (n : ℕ) (text : String) :
    (decorateLine shelf n text).closes = !(shelf.ending n).isEmpty := by
  have hcloses : (decorateLine shelf n text).closes = shelf.any fun s => s.last == n := by
    unfold decorateLine
    split <;> rfl
  rw [hcloses, Bool.eq_iff_iff, Bool.not_eq_true', List.isEmpty_eq_false_iff_exists_mem]
  simp only [List.any_eq_true, mem_ending, beq_iff_eq]

/-- The section that is found to begin on a line is the first of those that do. -/
lemma find?_first_eq (shelf : Shelf) (n : ℕ) :
    (shelf.find? fun s => s.first == n) = (shelf.beginning n).head? :=
  List.head?_filter.symm

/-- The decoration of a line on which no section begins. -/
lemma decorateLine_of_beginning_nil (h : shelf.beginning n = []) :
    decorateLine shelf n text =
      ⟨n, text, 0, 0, none, none, none, !(shelf.ending n).isEmpty⟩ := by
  rw [← decorateLine_closes shelf n text, decorateLine, find?_first_eq, h]
  rfl

/-- The decoration of a line on which one section begins. -/
lemma decorateLine_of_beginning_singleton (h : shelf.beginning n = [s]) :
    decorateLine shelf n text =
      ⟨n, text, s.first, s.last, some (s.nesting shelf), some s.kind, s.status,
        !(shelf.ending n).isEmpty⟩ := by
  rw [← decorateLine_closes shelf n text, decorateLine, find?_first_eq, h]
  rfl

/-! ### The order of the sections -/

/-- Whether a section lies inside another one does not depend on the order of the others. -/
lemma nesting_of_perm (h : shelf'.Perm shelf) (s : Section) :
    s.nesting shelf' = s.nesting shelf := by
  rw [Section.nesting, Section.nesting, h.any_eq]

/-- On a laminar shelf the decoration of a line does not depend on the order of the sections. -/
lemma decorateLine_of_perm (h : shelf.Laminar) (hperm : shelf'.Perm shelf) (n : ℕ)
    (text : String) : decorateLine shelf' n text = decorateLine shelf n text := by
  have hbeginning : (shelf'.beginning n).Perm (shelf.beginning n) := hperm.filter _
  have hending : (shelf'.ending n).Perm (shelf.ending n) := hperm.filter _
  rcases h.beginning_eq n with hnone | ⟨s, hs⟩
  · rw [hnone, List.perm_nil] at hbeginning
    rw [decorateLine_of_beginning_nil hbeginning, decorateLine_of_beginning_nil hnone,
      hending.isEmpty_eq]
  · rw [hs, List.perm_singleton] at hbeginning
    rw [decorateLine_of_beginning_singleton hbeginning, decorateLine_of_beginning_singleton hs,
      hending.isEmpty_eq, nesting_of_perm hperm]

/-- Lines that are decorated alike one by one are decorated alike. -/
lemma decorateFrom_congr (h : ∀ n text, decorateLine shelf' n text = decorateLine shelf n text)
    (number : ℕ) (lines : List String) :
    decorateFrom shelf' number lines = decorateFrom shelf number lines := by
  induction lines generalizing number with
  | nil => rfl
  | cons text texts ih => rw [decorateFrom, decorateFrom, h, ih]

/-! ### The decorations of lines -/

/-- The decorations have the texts and the numbers of their lines. -/
lemma map_text_decorateFrom (shelf : Shelf) (number : ℕ) (lines : List String) :
    (decorateFrom shelf number lines).map (fun d => (d.text, d.line)) = lines.zipIdx number := by
  induction lines generalizing number with
  | nil => rfl
  | cons text texts ih =>
    rw [decorateFrom, List.map_cons, decorateLine_text, decorateLine_line, ih, List.zipIdx_cons]

/-- A decoration is that of its line. -/
lemma eq_decorateLine_of_mem {d : Decoration} (h : d ∈ decorateFrom shelf number lines) :
    d = decorateLine shelf d.line d.text := by
  induction lines generalizing number with
  | nil => exact absurd h List.not_mem_nil
  | cons text texts ih =>
    rcases List.mem_cons.mp h with rfl | h
    · rw [decorateLine_line, decorateLine_text]
    · exact ih h

/-- What is read off some of the decorations is read off line by line. -/
lemma map_filter_decorateFrom {α : Type} {p : Decoration → Bool} {f : Decoration → α}
    {seen : ℕ → List α}
    (h : ∀ n text, ([decorateLine shelf n text].filter p).map f = seen n) (number : ℕ)
    (lines : List String) :
    ((decorateFrom shelf number lines).filter p).map f =
      (List.range' number lines.length).flatMap seen := by
  induction lines generalizing number with
  | nil => rfl
  | cons text texts ih =>
    rw [decorateFrom, ← List.singleton_append, List.filter_append, List.map_append, h, ih,
      List.length_cons, List.range'_succ, List.flatMap_cons]

/-- The decorations with a nesting show the sections that begin on their lines. -/
lemma map_filter_nesting (h : shelf.Laminar) (number : ℕ) (lines : List String) :
    ((decorateFrom shelf number lines).filter (·.nesting.isSome)).map
        (fun d => (d.line, d.first, d.last, d.kind, d.status)) =
      ((List.range' number lines.length).flatMap shelf.beginning).map
        fun s => (s.first, s.first, s.last, some s.kind, s.status) := by
  rw [List.map_flatMap]
  refine map_filter_decorateFrom (fun n text => ?_) number lines
  rcases h.beginning_eq n with hnone | ⟨s, hs⟩
  · rw [decorateLine_of_beginning_nil hnone, hnone]
    rfl
  · have hfirst : s.first = n := (mem_beginning.mp (hs ▸ List.mem_singleton_self s)).2
    rw [decorateLine_of_beginning_singleton hs, hs, ← hfirst]
    rfl

/-- The decorations that close show the sections that end on their lines. -/
lemma map_filter_closes (h : shelf.Laminar) (number : ℕ) (lines : List String) :
    ((decorateFrom shelf number lines).filter (·.closes)).map (·.line) =
      ((List.range' number lines.length).flatMap shelf.ending).map fun s => s.last := by
  rw [List.map_flatMap]
  refine map_filter_decorateFrom (fun n text => ?_) number lines
  have hcloses := decorateLine_closes shelf n text
  rcases h.ending_eq n with hnone | ⟨s, hs⟩
  · rw [hnone] at hcloses ⊢
    simp [hcloses]
  · have hlast : s.last = n := (mem_ending.mp (hs ▸ List.mem_singleton_self s)).2
    rw [hs] at hcloses ⊢
    simp [hcloses, decorateLine_line, hlast]

/-- A line closes a section exactly when just one section ends on it. -/
lemma decorateLine_closes_iff (h : shelf.Laminar) (n : ℕ) (text : String) :
    (decorateLine shelf n text).closes = true ↔ ∃! s, s ∈ shelf ∧ s.last = n := by
  rw [decorateLine_closes, Bool.not_eq_true', List.isEmpty_eq_false_iff_exists_mem]
  simp only [mem_ending]
  constructor
  · rintro ⟨s, hs, hlast⟩
    exact ⟨s, ⟨hs, hlast⟩, fun t ht => h.eq_of_last_eq ht.1 hs (ht.2.trans hlast.symm)⟩
  · rintro ⟨s, hs, -⟩
    exact ⟨s, hs⟩

/-- A line is decorated as an inner one exactly when a section begins on it that lies inside
another one. -/
lemma decorateLine_nesting_iff (h : shelf.Laminar) (n : ℕ) (text : String) :
    (decorateLine shelf n text).nesting = some .inner ↔
      ∃ s ∈ shelf, s.first = n ∧ ∃ t ∈ shelf, t.strictlyContains s.toInterval = true := by
  rcases h.beginning_eq n with hnone | ⟨s, hs⟩
  · rw [decorateLine_of_beginning_nil hnone]
    simp only [reduceCtorEq, false_iff]
    rintro ⟨s, hs, hfirst, -⟩
    have hmem : s ∈ shelf.beginning n := mem_beginning.mpr ⟨hs, hfirst⟩
    rw [hnone] at hmem
    exact List.not_mem_nil hmem
  · obtain ⟨hmem, hfirst⟩ := mem_beginning.mp (hs ▸ List.mem_singleton_self s)
    have hinner : s.nesting shelf = .inner ↔
        ∃ t ∈ shelf, t.strictlyContains s.toInterval = true := by
      rw [Section.nesting, ← List.any_eq_true]
      split <;> simp_all
    rw [decorateLine_of_beginning_singleton hs]
    simp only [Option.some.injEq, hinner]
    constructor
    · intro hinside
      exact ⟨s, hmem, hfirst, hinside⟩
    · rintro ⟨s', hs', hfirst', hinside⟩
      rwa [h.eq_of_first_eq hs' hmem (hfirst'.trans hfirst.symm)] at hinside

/-! ### What the decorations show -/

/-- What the decorations of the lines of a file show of the sections of a shelf. -/
structure DecoratedBy (lines : List String) (shelf : Shelf) (ds : List Decoration) : Prop where
  /-- There is one decoration for each line, with its text and its number. -/
  lines_eq : ds.map (fun d => (d.text, d.line)) = lines.zipIdx 1
  /-- The order of the sections makes no difference. -/
  order : ∀ shelf' : Shelf, shelf'.Perm shelf → decorate lines shelf' = ds
  /-- Every section is seen once, on its first line, and no other. -/
  begins : ((ds.filter (·.nesting.isSome)).map
      fun d => (d.line, d.first, d.last, d.kind, d.status)).Perm
    (shelf.map fun s => (s.first, s.first, s.last, some s.kind, s.status))
  /-- The end of every section is seen once, on its last line, and no other. -/
  ends : ((ds.filter (·.closes)).map (·.line)).Perm (shelf.map fun s => s.last)
  /-- A line that closes is the last line of just one section. -/
  closes_iff : ∀ d ∈ ds, d.closes = true ↔ ∃! s, s ∈ shelf ∧ s.last = d.line
  /-- A line is an inner one if the section that begins on it lies inside another one. -/
  inner_iff : ∀ d ∈ ds, d.nesting = some .inner ↔
    ∃ s ∈ shelf, s.first = d.line ∧ ∃ t ∈ shelf, t.strictlyContains s.toInterval = true

/-- **The decorations lose nothing.**  For a laminar shelf with its sections in the range of the
lines, the decorations show every section once on its first line and its end once on its last line,
and nothing else; they tell the inner sections from the outer ones; and they do not depend on the
order of the sections. -/
theorem decoratedBy_decorate (h : shelf.Laminar)
    (hwithin : ∀ s ∈ shelf, 1 ≤ s.first ∧ s.last ≤ lines.length) :
    shelf.DecoratedBy lines (decorate lines shelf) where
  lines_eq := map_text_decorateFrom shelf 1 lines
  order _ hperm := decorateFrom_congr (decorateLine_of_perm h hperm) 1 lines
  begins := by
    rw [decorate, map_filter_nesting h]
    exact (h.perm_flatMap_beginning hwithin).map _
  ends := by
    rw [decorate, map_filter_closes h]
    exact (h.perm_flatMap_ending hwithin).map _
  closes_iff d hd := by
    rw [eq_decorateLine_of_mem hd, decorateLine_line]
    exact decorateLine_closes_iff h d.line d.text
  inner_iff d hd := by
    rw [eq_decorateLine_of_mem hd, decorateLine_line]
    exact decorateLine_nesting_iff h d.line d.text

/-- A comment of one line in a procedure is seen with its end on its line as an inner section,
although it comes before the procedure; the end of the procedure is seen on its own, and the last
line is plain. -/
theorem decoratedBy_of_comment_in_procedure :
    let comment : Section :=
      (Section.fresh 1 ⟨⟨2, 2⟩, Kind.comment⟩ "// a" "" "").annotate .compiledWithWarnings "2: a"
    let procedure : Section := .fresh 1 ⟨⟨1, 3⟩, Kind.procedure⟩ "int f() \x7b\n// a\n\x7d" "" ""
    let shelf : Shelf := [comment, procedure]
    shelf.Laminar ∧ (∀ s ∈ shelf, 1 ≤ s.first ∧ s.last ≤ 4) ∧
      shelf.DecoratedBy ["int f() \x7b", "// a", "\x7d", ""]
        [⟨1, "int f() \x7b", 1, 3, some .outer, some Kind.procedure, none, false⟩,
          ⟨2, "// a", 2, 2, some .inner, some Kind.comment, some .compiledWithWarnings, true⟩,
          ⟨3, "\x7d", 0, 0, none, none, none, true⟩, ⟨4, "", 0, 0, none, none, none, false⟩] := by
  intro comment procedure shelf
  have hlaminar : shelf.Laminar :=
    ⟨by simp [shelf, comment, procedure, Section.fresh], by
      simp [shelf, comment, procedure, Section.fresh, Interval.Compatible, Interval.Apart,
        Interval.strictlyContains]⟩
  have hwithin : ∀ s ∈ shelf, 1 ≤ s.first ∧ s.last ≤ 4 := by
    simp [shelf, comment, procedure, Section.fresh]
  exact ⟨hlaminar, hwithin, decoratedBy_decorate hlaminar hwithin⟩

end Shelf

end SectionLedger
