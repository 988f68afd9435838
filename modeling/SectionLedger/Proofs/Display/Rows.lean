import Mathlib
import SectionLedger.Display.Decorated
import SectionLedger.Proofs.Display.Decoration

/-!
# The rows of a decorated source

A decoration tells from the sections of a file which of them begin and end on a line; the rows are
printed from the decorations with nothing but a level that goes up and down.  On a laminar shelf the
two agree, because the level is always the height of the stack of open sections
(`Decoration.checkedRows_decorateFrom`).  From this the rows are known line by line
(`Shelf.rowsAfter`), and reading them with a stack of begin rows gives every section its own end row
(`Row.pairs?_rowsAfter`).
-/

namespace SectionLedger

open Text

/-! ### Reading rows -/

namespace Row

/-- A row as it is spelled without colour. -/
def plain : Row → String
  | opening level nesting kind interval status =>
    indent level ++ sign nesting ++ " " ++ kind ++ s!" {interval.first}-{interval.last}" ++
      (match status with
        | some s => " [" ++ s.label ++ "]"
        | none => "") ++ "\n"
  | line level number text => lineColumn number ++ " " ++ indent level ++ text ++ "\n"
  | closing level => indent level ++ "└" ++ "\n"

/-- Without colour a row is printed as it is spelled. -/
lemma toText_false (row : Row) : row.toText false = row.plain := by
  cases row with
  | opening level nesting kind interval status =>
    cases status <;> simp only [toText, plain, Status.shown, Ink.write_false]
  | line level number text => simp only [toText, plain, Ink.write_false]
  | closing level => simp only [toText, plain, Ink.write_false]

/-- Whether a row begins a section. -/
def isOpening : Row → Bool
  | opening .. => true
  | _ => false

/-- Whether a row is a line of the source. -/
def isLine : Row → Bool
  | line .. => true
  | _ => false

/-- Whether a row ends a section. -/
def isClosing : Row → Bool
  | closing .. => true
  | _ => false

/-- A begin row, by the lines and the level that it shows and the line that it stands above. -/
structure Begin where
  interval : Interval
  level : ℕ
  above : ℕ
  deriving DecidableEq

/-- A begin row with an end row, by the level that it shows and the line that it stands below. -/
structure Pair where
  start : Begin
  level : ℕ
  below : ℕ
  deriving DecidableEq

/-- The pairs of begin and end rows, in the order of their end rows: an end row belongs to the last
begin row that has none yet.  No row may be left alone.  The rows are read with the begin rows that
wait for their end and the number of the last line. -/
def pairs? (opened : List Begin) (number : ℕ) : List Row → Option (List Pair)
  | [] => if opened.isEmpty then some [] else none
  | opening level _ _ interval _ :: rows =>
    pairs? (⟨interval, level, number + 1⟩ :: opened) number rows
  | line _ number _ :: rows => pairs? opened number rows
  | closing level :: rows =>
    match opened with
    | [] => none
    | start :: opened => (pairs? opened number rows).map (⟨start, level, number⟩ :: ·)

end Row

/-! ### The level as a counter -/

namespace Decoration

/-- The rows of decorated lines with the level after them, or nothing if a section ends at level
zero. -/
def checkedRows (level : ℕ) : List Decoration → Option (List Row × ℕ)
  | [] => some ([], level)
  | d :: ds =>
    let inside := level + (d.openingRows level).length
    let upToLine := d.openingRows level ++ [.line inside d.line d.text]
    if d.closes then
      if inside = 0 then none
      else (checkedRows (inside - 1) ds).map fun (rows, last) =>
        (upToLine ++ .closing (inside - 1) :: rows, last)
    else (checkedRows inside ds).map fun (rows, last) => (upToLine ++ rows, last)

/-- Where no section ends at level zero, the rows are those that are printed. -/
lemma rows_of_checkedRows {ds : List Decoration} {level last : ℕ} {rs : List Row}
    (h : checkedRows level ds = some (rs, last)) : rows level ds = rs := by
  induction ds generalizing level rs with
  | nil =>
    obtain ⟨rfl, -⟩ := Prod.mk.inj (Option.some.inj h)
    rfl
  | cons d ds ih =>
    unfold checkedRows at h
    unfold rows
    by_cases hcloses : d.closes = true
    · simp only [hcloses, if_true, Option.ite_none_left_eq_some, Option.map_eq_some_iff] at h ⊢
      obtain ⟨-, ⟨rest, last'⟩, hrest, heq⟩ := h
      obtain ⟨rfl, rfl⟩ := Prod.mk.inj heq
      rw [ih hrest, List.append_assoc, List.singleton_append]
    · simp only [if_neg hcloses, Option.map_eq_some_iff] at h ⊢
      obtain ⟨⟨rest, last'⟩, hrest, heq⟩ := h
      obtain ⟨rfl, rfl⟩ := Prod.mk.inj heq
      rw [ih hrest, List.append_assoc, List.singleton_append]

end Decoration

/-! ### The rows of a shelf -/

namespace Shelf

variable {shelf : Shelf} {stack : List Section} {s : Section} {number : ℕ}

/-- The row that begins a section of a shelf. -/
def beginRow (shelf : Shelf) (s : Section) : Row :=
  .opening (shelf.depth s) (if 0 < shelf.depth s then .inner else .outer) s.kind s.toInterval
    s.status

/-- The row that ends a section of a shelf. -/
def endRow (shelf : Shelf) (s : Section) : Row := .closing (shelf.depth s)

/-- The begin row of a section of a shelf. -/
def beginOf (shelf : Shelf) (s : Section) : Row.Begin := ⟨s.toInterval, shelf.depth s, s.first⟩

/-- The begin and end row of a section of a shelf. -/
def pairOf (shelf : Shelf) (s : Section) : Row.Pair := ⟨shelf.beginOf s, shelf.depth s, s.last⟩

/-- The rows of the lines after a number, with the sections of a shelf that begin and end on
them. -/
def rowsAfter (shelf : Shelf) (number : ℕ) : List String → List Row
  | [] => []
  | text :: texts =>
    (shelf.beginning (number + 1)).map shelf.beginRow ++
      .line (shelf.reach (number + 1)) (number + 1) text ::
        ((shelf.ending (number + 1)).map shelf.endRow ++ rowsAfter shelf (number + 1) texts)

/-- A section lies inside another one exactly when its depth is positive. -/
lemma nesting_eq (shelf : Shelf) (s : Section) :
    s.nesting shelf = if 0 < shelf.depth s then .inner else .outer := by
  unfold Section.nesting depth
  simp only [List.any_eq_true, List.countP_pos_iff]

/-- At the height of the stack, the begin row of a line is that of the section that begins there. -/
lemma openingRows_decorateLine (hstack : shelf.IsStack (OpenBefore number) stack)
    (h : shelf.Laminar) (text : String) :
    (decorateLine shelf number text).openingRows stack.length =
      (shelf.beginning number).map shelf.beginRow := by
  rcases h.beginning_eq number with hnone | ⟨s, hs⟩
  · rw [decorateLine_of_beginning_nil hnone, hnone]
    rfl
  · have hbegins : s ∈ shelf.beginning number := hs ▸ List.mem_singleton_self s
    have hdepth := hstack.length_eq_depth_of_first h hbegins
    rw [decorateLine_of_beginning_singleton hs, hs, hdepth, nesting_eq]
    rfl

/-- At the height of the stack, the lines of a shelf are printed as its rows, the level never goes
below zero, and it is zero after the last line. -/
lemma checkedRows_decorateFrom {lines : List String} (h : shelf.Laminar)
    (hlast : ∀ s ∈ shelf, s.last ≤ number + lines.length)
    (hstack : shelf.IsStack (OpenBefore (number + 1)) stack) :
    Decoration.checkedRows stack.length (decorateFrom shelf (number + 1) lines) =
      some (shelf.rowsAfter number lines, 0) := by
  induction lines generalizing number stack with
  | nil =>
    rw [hstack.eq_nil_of_last_le hlast]
    rfl
  | cons text texts ih =>
    -- the stack on the line, and then the stack after it
    have hpushed := hstack.push h
    obtain ⟨rest, hpop, hrest⟩ := hpushed.exists_pop h
    have hinside : stack.length + ((shelf.beginning (number + 1)).map shelf.beginRow).length =
        (shelf.beginning (number + 1) ++ stack).length := by
      rw [List.length_map, List.length_append, Nat.add_comm]
    have hlast' : ∀ s ∈ shelf, s.last ≤ number + 1 + texts.length := by
      intro s hs
      have hs' := hlast s hs
      rw [List.length_cons] at hs'
      omega
    have hrows := ih hlast' hrest
    unfold decorateFrom Decoration.checkedRows rowsAfter
    simp only [openingRows_decorateLine hstack h, hinside, hpushed.length_eq_reach h,
      decorateLine_line, decorateLine_text, decorateLine_closes]
    have hheight := hpushed.length_eq_reach h
    rcases h.ending_eq (number + 1) with hnone | ⟨s, hs⟩
    · rw [hpop, hnone, List.nil_append] at hheight
      simp [hnone, ← hheight, hrows]
    · have hends : s ∈ shelf.ending (number + 1) := hs ▸ List.mem_singleton_self s
      have hdepth := hrest.length_eq_depth_of_last h hends
      rw [hpop, hs, List.singleton_append, List.length_cons] at hheight
      simp [hs, ← hheight, hrows, endRow, ← hdepth]

/-- The begin row of a line is put on top of those that wait. -/
lemma pairs?_beginning (h : shelf.Laminar) (rows : List Row) :
    Row.pairs? (stack.map shelf.beginOf) number
        ((shelf.beginning (number + 1)).map shelf.beginRow ++ rows) =
      Row.pairs? ((shelf.beginning (number + 1) ++ stack).map shelf.beginOf) number rows := by
  rcases h.beginning_eq (number + 1) with hnone | ⟨s, hs⟩
  · rw [hnone]
    rfl
  · have hbegins : s ∈ shelf.beginning (number + 1) := hs ▸ List.mem_singleton_self s
    have hfirst : s.first = number + 1 := (mem_beginning.mp hbegins).2
    have hbegin : shelf.beginOf s = ⟨s.toInterval, shelf.depth s, number + 1⟩ := by
      rw [beginOf, hfirst]
    rw [hs, List.map_append, List.map_singleton, List.map_singleton, hbegin]
    rfl

/-- The end row of a line takes the begin row of its section from the top. -/
lemma pairs?_ending (h : shelf.Laminar) (rows : List Row) :
    Row.pairs? ((shelf.ending number ++ stack).map shelf.beginOf) number
        ((shelf.ending number).map shelf.endRow ++ rows) =
      (Row.pairs? (stack.map shelf.beginOf) number rows).map
        ((shelf.ending number).map shelf.pairOf ++ ·) := by
  rcases h.ending_eq number with hnone | ⟨s, hs⟩
  · rw [hnone]
    exact Option.map_id'.symm
  · have hends : s ∈ shelf.ending number := hs ▸ List.mem_singleton_self s
    have hlast : s.last = number := (mem_ending.mp hends).2
    rw [hs, ← hlast]
    rfl

/-- Read with the stack of open sections, the rows of the lines of a shelf give every section that
ends on them its own end row. -/
lemma pairs?_rowsAfter {lines : List String} (h : shelf.Laminar)
    (hlast : ∀ s ∈ shelf, s.last ≤ number + lines.length)
    (hstack : shelf.IsStack (OpenBefore (number + 1)) stack) :
    Row.pairs? (stack.map shelf.beginOf) number (shelf.rowsAfter number lines) =
      some (((List.range' (number + 1) lines.length).flatMap shelf.ending).map shelf.pairOf) := by
  induction lines generalizing number stack with
  | nil =>
    rw [hstack.eq_nil_of_last_le hlast]
    rfl
  | cons text texts ih =>
    have hpushed := hstack.push h
    obtain ⟨rest, hpop, hrest⟩ := hpushed.exists_pop h
    have hlast' : ∀ s ∈ shelf, s.last ≤ number + 1 + texts.length := by
      intro s hs
      have hs' := hlast s hs
      rw [List.length_cons] at hs'
      omega
    unfold rowsAfter
    rw [pairs?_beginning h, Row.pairs?, hpop, pairs?_ending h, ih hlast' hrest, List.length_cons,
      List.range'_succ, List.flatMap_cons, List.map_append]
    rfl

/-- The rows of the lines of a shelf, line by line. -/
lemma rowsAfter_eq_flatMap (shelf : Shelf) (number : ℕ) (lines : List String) :
    shelf.rowsAfter number lines = (lines.zipIdx (number + 1)).flatMap fun (text, n) =>
      (shelf.beginning n).map shelf.beginRow ++ [.line (shelf.reach n) n text] ++
        (shelf.ending n).map shelf.endRow := by
  induction lines generalizing number with
  | nil => rfl
  | cons text texts ih =>
    rw [rowsAfter, ih, List.zipIdx_cons, List.flatMap_cons]
    simp

/-- What is listed for the number of each line is listed for the numbers in their order. -/
lemma flatMap_zipIdx {α β : Type} (f : ℕ → List β) (first : ℕ) (as : List α) :
    ((as.zipIdx first).flatMap fun (_, n) => f n) = (List.range' first as.length).flatMap f := by
  rw [← List.zipIdx_map_snd, List.flatMap_map]

/-- The begin rows of the lines of a shelf. -/
lemma filter_isOpening_rowsAfter (shelf : Shelf) (number : ℕ) (lines : List String) :
    (shelf.rowsAfter number lines).filter Row.isOpening =
      ((List.range' (number + 1) lines.length).flatMap shelf.beginning).map shelf.beginRow := by
  have hbegin : Row.isOpening ∘ shelf.beginRow = fun _ => true := rfl
  have hend : Row.isOpening ∘ shelf.endRow = fun _ => false := rfl
  rw [rowsAfter_eq_flatMap, List.filter_flatMap, List.map_flatMap, ← flatMap_zipIdx]
  simp [List.filter_map, hbegin, hend, Row.isOpening]

/-- The lines of a shelf, each at the level of the sections that contain it. -/
lemma filter_isLine_rowsAfter (shelf : Shelf) (number : ℕ) (lines : List String) :
    (shelf.rowsAfter number lines).filter Row.isLine =
      (lines.zipIdx (number + 1)).map fun (text, n) => .line (shelf.reach n) n text := by
  have hbegin : Row.isLine ∘ shelf.beginRow = fun _ => false := rfl
  have hend : Row.isLine ∘ shelf.endRow = fun _ => false := rfl
  rw [rowsAfter_eq_flatMap, List.filter_flatMap, List.map_eq_flatMap]
  simp [List.filter_map, List.filter_cons, hbegin, hend, Row.isLine]

/-- The end rows of the lines of a shelf. -/
lemma filter_isClosing_rowsAfter (shelf : Shelf) (number : ℕ) (lines : List String) :
    (shelf.rowsAfter number lines).filter Row.isClosing =
      ((List.range' (number + 1) lines.length).flatMap shelf.ending).map shelf.endRow := by
  have hbegin : Row.isClosing ∘ shelf.beginRow = fun _ => false := rfl
  have hend : Row.isClosing ∘ shelf.endRow = fun _ => true := rfl
  rw [rowsAfter_eq_flatMap, List.filter_flatMap, List.map_flatMap, ← flatMap_zipIdx]
  simp [List.filter_map, hbegin, hend, Row.isClosing]

/-! ### What the rows show -/

/-- What the rows of a decorated source show of its lines and of the sections of a shelf. -/
structure ShownBy (lines : List String) (shelf : Shelf) (rows : List Row) : Prop where
  /-- The rows are the text that is printed. -/
  printed : Decoration.listDisplay .text false (decorate lines shelf) =
    String.join (rows.map Row.plain)
  /-- No section ends at level zero, and the level is zero after the last line. -/
  checked : Decoration.checkedRows 0 (decorate lines shelf) = some (rows, 0)
  /-- A line stands at the level of as many sections as contain it. -/
  lineRows : rows.filter Row.isLine =
    (lines.zipIdx 1).map fun (text, n) => .line (shelf.reach n) n text
  /-- A section begins once, at the level of as many sections as lie around it, with the inner sign
  if there are any. -/
  beginRows : (rows.filter Row.isOpening).Perm (shelf.map shelf.beginRow)
  /-- A section ends once, at the level that it begins at. -/
  endRows : (rows.filter Row.isClosing).Perm (shelf.map shelf.endRow)
  /-- Read as brackets, the begin row above the first line of a section and the end row below its
  last line are a pair, and there are no other pairs. -/
  paired : ∃ pairs, Row.pairs? [] 0 rows = some pairs ∧ pairs.Perm (shelf.map shelf.pairOf)

/-- **The rows of a decorated source are balanced.**  For a laminar shelf with its sections in the
range of the lines, the level of the printer is the number of open sections throughout: it never has
to go below zero, lines and sections stand at the levels of what lies around them, and begin and end
rows are brackets that belong together just where they are those of one section. -/
theorem shownBy_rows {lines : List String} {shelf : Shelf} (h : shelf.Laminar)
    (hwithin : ∀ s ∈ shelf, 1 ≤ s.first ∧ s.last ≤ lines.length) :
    shelf.ShownBy lines (Decoration.rows 0 (decorate lines shelf)) := by
  have hstack : shelf.IsStack (OpenBefore (0 + 1)) [] := .nil fun s hs => (hwithin s hs).1
  have hlast : ∀ s ∈ shelf, s.last ≤ 0 + lines.length := fun s hs =>
    (hwithin s hs).2.trans_eq (Nat.zero_add _).symm
  have hchecked : Decoration.checkedRows 0 (decorate lines shelf) =
      some (shelf.rowsAfter 0 lines, 0) := checkedRows_decorateFrom h hlast hstack
  have hrows : Decoration.rows 0 (decorate lines shelf) = shelf.rowsAfter 0 lines :=
    Decoration.rows_of_checkedRows hchecked
  rw [hrows]
  exact {
    printed := by
      unfold Decoration.listDisplay Format.render Decoration.listText
      rw [hrows]
      exact congrArg String.join (List.map_congr_left fun row _ => row.toText_false)
    checked := hchecked
    lineRows := filter_isLine_rowsAfter shelf 0 lines
    beginRows := by
      rw [filter_isOpening_rowsAfter]
      exact (h.perm_flatMap_beginning hwithin).map _
    endRows := by
      rw [filter_isClosing_rowsAfter]
      exact (h.perm_flatMap_ending hwithin).map _
    paired := ⟨_, pairs?_rowsAfter h hlast hstack, (h.perm_flatMap_ending hwithin).map _⟩ }

/-- The comment of one line in a procedure stands a level further in, and a directive after the
procedure is on the outside again. -/
theorem shownBy_rows_of_comment_in_procedure :
    let comment : Section := .fresh 1 ⟨⟨2, 2⟩, Kind.comment⟩ "// a" "" ""
    let directive : Section := .fresh 1 ⟨⟨4, 4⟩, Kind.directive⟩ "#undef A" "" ""
    let procedure : Section := .fresh 1 ⟨⟨1, 3⟩, Kind.procedure⟩ "int f() \x7b\n// a\n\x7d" "" ""
    let shelf : Shelf := [comment, directive, procedure]
    shelf.Laminar ∧ (∀ s ∈ shelf, 1 ≤ s.first ∧ s.last ≤ 4) ∧
      shelf.ShownBy ["int f() \x7b", "// a", "\x7d", "#undef A"]
        [.opening 0 .outer Kind.procedure ⟨1, 3⟩ none, .line 1 1 "int f() \x7b",
          .opening 1 .inner Kind.comment ⟨2, 2⟩ none, .line 2 2 "// a", .closing 1,
          .line 1 3 "\x7d", .closing 0,
          .opening 0 .outer Kind.directive ⟨4, 4⟩ none, .line 1 4 "#undef A", .closing 0] := by
  intro comment directive procedure shelf
  have hlaminar : shelf.Laminar :=
    ⟨by simp [shelf, comment, directive, procedure, Section.fresh], by
      simp [shelf, comment, directive, procedure, Section.fresh, Interval.Compatible,
        Interval.Apart, Interval.strictlyContains]⟩
  have hwithin : ∀ s ∈ shelf, 1 ≤ s.first ∧ s.last ≤ 4 := by
    simp [shelf, comment, directive, procedure, Section.fresh]
  exact ⟨hlaminar, hwithin, shownBy_rows hlaminar hwithin⟩

end Shelf

end SectionLedger
