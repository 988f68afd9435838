import Mathlib
import SectionLedger.Display.Basic
import SectionLedger.Proofs.Compiler.Session
import SectionLedger.Proofs.Text.Pattern

/-!
# Headers and bodies of a listing

Dashed lines lead from a body into a header and back.  The records of a listing are made by a pass
that keeps whether it is in a body, and shown by one that keeps whether it is in a header.  Both
states at a line are told by the number of dashed lines before it: the first is that this number is
even (`mark_append`), the second that it is odd (`headerAfter_mark`).  So the two passes are in step
at every line of every listing, and a source line that is found is also shown.
-/

namespace SectionLedger

open Text

/-- The dashed lines of a listing in their order: one opens a header, the next a body again. -/
def Marker.nth (n : ℕ) : Marker := if Even n then ⟨.header, .before⟩ else ⟨.body, .after⟩

namespace ListingLine

/-- The line is dashed. -/
def IsDashed (code : String) : Prop := dashes.toList <+: code.toList

/-- The number of dashed lines. -/
def dashedIn (lines : List (List Char)) : ℕ := lines.countP dashes.toList.isPrefixOf

/-- The number of records with a marker. -/
def markedIn (records : List ListingLine) : ℕ := records.countP (·.marker.isSome)

/-- Whether the line behind some records stands in a header, as the markers tell it. -/
def headerAfter (inHeader : Bool) (records : List ListingLine) : Bool :=
  records.foldl (fun inHeader r => (r.marker.map (·.zone == .header)).getD inHeader) inHeader

/-- A record as it is shown without colour: the source line in brackets, if there is one, and the
code. -/
def shown (r : ListingLine) : String := (if 0 < r.line then s!"[{r.line}] " else "") ++ r.code

section Mark

variable {name : String} {n : ℕ} {lines : List (List Char)}

/-- One line more changes from even to odd and back. -/
lemma decide_even_succ (n : ℕ) : decide (Even (n + 1)) = !decide (Even n) := by
  rw [← decide_not, decide_eq_decide, Nat.even_add_one]

/-- The record of a dashed line behind a number of others has the marker of that number. -/
lemma mark_cons_of_dashed {code : List Char} (h : dashes.toList.isPrefixOf code = true) (n : ℕ) :
    mark name (decide (Even n)) (code :: lines) =
      ⟨String.ofList code, some (Marker.nth n), 0⟩ :: mark name (decide (Even (n + 1))) lines := by
  rw [mark, if_pos h, decide_even_succ, Marker.nth]
  by_cases hn : Even n <;> simp [hn]

/-- The record of any other line has a source line only in a body. -/
lemma mark_cons_of_not_dashed {code : List Char} (h : dashes.toList.isPrefixOf code = false)
    (n : ℕ) :
    mark name (decide (Even n)) (code :: lines) =
      ⟨String.ofList code, none, if Even n then lineOf name code else 0⟩ ::
        mark name (decide (Even n)) lines := by
  rw [mark, if_neg (Bool.not_eq_true _ ▸ h)]
  simp only [decide_eq_true_eq]

/-- The number of dashed lines grows with each. -/
lemma dashedIn_cons (code : List Char) (lines : List (List Char)) :
    dashedIn (code :: lines) =
      dashedIn lines + if dashes.toList.isPrefixOf code then 1 else 0 := List.countP_cons

/-- **The records behind some lines are those of a listing that begins in a body or in a header, as
the number of dashed lines is even or odd.** -/
theorem mark_append (name : String) (n : ℕ) (lines later : List (List Char)) :
    mark name (decide (Even n)) (lines ++ later) =
      mark name (decide (Even n)) lines ++ mark name (decide (Even (n + dashedIn lines))) later := by
  induction lines generalizing n with
  | nil => rfl
  | cons code lines ih =>
    rw [List.cons_append, dashedIn_cons]
    cases hcode : dashes.toList.isPrefixOf code with
    | true =>
      rw [mark_cons_of_dashed hcode, mark_cons_of_dashed hcode, ih, if_pos rfl, List.cons_append,
        Nat.add_right_comm, Nat.add_assoc]
    | false =>
      rw [mark_cons_of_not_dashed hcode, mark_cons_of_not_dashed hcode, ih, if_neg Bool.false_ne_true,
        List.cons_append, Nat.add_zero]

/-- The records with a marker are those of the dashed lines. -/
lemma markedIn_mark (name : String) (n : ℕ) (lines : List (List Char)) :
    markedIn (mark name (decide (Even n)) lines) = dashedIn lines := by
  induction lines generalizing n with
  | nil => rfl
  | cons code lines ih =>
    rw [dashedIn_cons]
    cases hcode : dashes.toList.isPrefixOf code with
    | true => rw [mark_cons_of_dashed hcode, markedIn, List.countP_cons, ← markedIn, ih]; rfl
    | false => rw [mark_cons_of_not_dashed hcode, markedIn, List.countP_cons, ← markedIn, ih]; rfl

/-- The markers come in their order. -/
lemma filterMap_marker_mark (name : String) (n : ℕ) (lines : List (List Char)) :
    (mark name (decide (Even n)) lines).filterMap (·.marker) =
      (List.range' n (dashedIn lines)).map Marker.nth := by
  induction lines generalizing n with
  | nil => rfl
  | cons code lines ih =>
    rw [dashedIn_cons]
    cases hcode : dashes.toList.isPrefixOf code with
    | true =>
      rw [mark_cons_of_dashed hcode, if_pos rfl, List.range'_succ, List.map_cons, ← ih]
      rfl
    | false =>
      rw [mark_cons_of_not_dashed hcode, if_neg Bool.false_ne_true, Nat.add_zero, ← ih]
      rfl

/-- A record has a marker exactly if its line is dashed. -/
lemma marker_isSome_iff_of_mem_mark {r : ListingLine}
    (h : r ∈ mark name (decide (Even n)) lines) : r.marker.isSome = true ↔ IsDashed r.code := by
  induction lines generalizing n with
  | nil => exact absurd h List.not_mem_nil
  | cons code lines ih =>
    rw [IsDashed, ← List.isPrefixOf_iff_prefix]
    cases hcode : dashes.toList.isPrefixOf code with
    | true =>
      rw [mark_cons_of_dashed hcode] at h
      rcases List.mem_cons.mp h with rfl | h
      · simp [hcode]
      · rw [ih h, IsDashed, List.isPrefixOf_iff_prefix]
    | false =>
      rw [mark_cons_of_not_dashed hcode] at h
      rcases List.mem_cons.mp h with rfl | h
      · simp [hcode]
      · rw [ih h, IsDashed, List.isPrefixOf_iff_prefix]

/-- Only a comment refers to a source line. -/
lemma head?_of_lineOf_pos {code : List Char} (h : 0 < lineOf name code) :
    code.head? = some ';' := by
  rw [lineOf] at h
  split at h
  · next rest hrest =>
    have hmem := List.mem_of_find?_eq_some hrest
    simp only [reference, Pattern.inOrder, Pattern.word, Pattern.mem_rests_seq,
      Pattern.mem_rests_literal] at hmem
    obtain ⟨behind, rfl, -⟩ := hmem
    rfl
  · exact absurd h (lt_irrefl 0)

end Mark

/-! ### The two states at a line -/

section Rows

/-- The marker of a number belongs to a header if the next number is odd. -/
lemma Marker.zone_nth (n : ℕ) : ((Marker.nth n).zone == .header) = !decide (Even (n + 1)) := by
  rw [decide_even_succ, Marker.nth]
  by_cases hn : Even n <;> simp [hn]

/-- A record with a marker is shown as its code, and its marker tells where the next one stands. -/
lemma rows_cons_of_marker {r : ListingLine} {m : Marker} (h : r.marker = some m)
    (colour inHeader : Bool) (records : List ListingLine) :
    rows colour inHeader (r :: records) =
      Ink.dim.write colour r.code :: rows colour (m.zone == .header) records := by
  rw [rows, h]

/-- A record without a marker leaves the next one where it stands itself. -/
lemma rows_cons_of_no_marker {r : ListingLine} (h : r.marker = none)
    (colour inHeader : Bool) (records : List ListingLine) :
    rows colour inHeader (r :: records) =
      (if inHeader then Ink.dim.write colour r.code
        else if 0 < r.line then
          Ink.yellow.write colour s!"[{r.line}]" ++ " " ++ Ink.green.write colour r.code
        else r.code) :: rows colour inHeader records := by
  rw [rows, h]

/-- The rows behind some records are those of records that begin where the markers tell. -/
theorem rows_append (colour inHeader : Bool) (records later : List ListingLine) :
    rows colour inHeader (records ++ later) =
      rows colour inHeader records ++ rows colour (headerAfter inHeader records) later := by
  induction records generalizing inHeader with
  | nil => rfl
  | cons r records ih =>
    rw [List.cons_append, headerAfter, List.foldl_cons, ← headerAfter]
    cases hmarker : r.marker with
    | some m => rw [rows_cons_of_marker hmarker, rows_cons_of_marker hmarker, ih]; rfl
    | none => rw [rows_cons_of_no_marker hmarker, rows_cons_of_no_marker hmarker, ih]; rfl

/-- **The markers tell a header exactly where the number of dashed lines is odd.** -/
theorem headerAfter_mark (name : String) (n : ℕ) (lines : List (List Char)) :
    headerAfter (!decide (Even n)) (mark name (decide (Even n)) lines) =
      !decide (Even (n + dashedIn lines)) := by
  induction lines generalizing n with
  | nil => rfl
  | cons code lines ih =>
    rw [dashedIn_cons]
    cases hcode : dashes.toList.isPrefixOf code with
    | true =>
      rw [mark_cons_of_dashed hcode, headerAfter, List.foldl_cons, ← headerAfter, Option.map_some,
        Option.getD_some, Marker.zone_nth, ih, if_pos rfl, Nat.add_right_comm, Nat.add_assoc]
    | false =>
      rw [mark_cons_of_not_dashed hcode, headerAfter, List.foldl_cons, ← headerAfter,
        Option.map_none, Option.getD_none, ih, if_neg Bool.false_ne_true, Nat.add_zero]

/-- Without colour, every record is shown with its source line, if it has one. -/
theorem rows_mark (name : String) (n : ℕ) (lines : List (List Char)) :
    rows false (!decide (Even n)) (mark name (decide (Even n)) lines) =
      (mark name (decide (Even n)) lines).map shown := by
  induction lines generalizing n with
  | nil => rfl
  | cons code lines ih =>
    cases hcode : dashes.toList.isPrefixOf code with
    | true =>
      rw [mark_cons_of_dashed hcode, rows_cons_of_marker rfl, Marker.zone_nth, ih, List.map_cons,
        Ink.write_false, shown, if_neg (lt_irrefl 0), String.empty_append]
    | false =>
      rw [mark_cons_of_not_dashed hcode, rows_cons_of_no_marker rfl, ih, List.map_cons,
        Ink.write_false, Ink.write_false, Ink.write_false]
      congr 1
      by_cases hn : Even n
      · by_cases hline : 0 < lineOf name code
        · have hblank : toString "] " = toString "]" ++ " " := by decide
          simp [hn, hline, shown, hblank, String.append_assoc]
        · simp [hn, hline, shown]
      · simp [hn, shown]

end Rows

/-! ### Whole listings -/

/-- Records are made for the lines of a listing: one for each, with a marker exactly if the line is
dashed.  The markers open and close headers in turn, and a source line is only found on a comment
with an even number of dashed lines before it. -/
structure IsMarked (listing : String) (records : List ListingLine) : Prop where
  intercalate_code : "\n".intercalate (records.map (·.code)) = listing
  newline_notMem : ∀ r ∈ records, '\n' ∉ r.code.toList
  length_eq : records.length = listing.toList.count '\n' + 1
  marker_isSome_iff : ∀ r ∈ records, (r.marker.isSome = true ↔ IsDashed r.code)
  markers_eq : records.filterMap (·.marker) = (List.range (markedIn records)).map Marker.nth
  of_line_pos : ∀ before r after, records = before ++ r :: after → 0 < r.line →
    r.marker = none ∧ r.code.toList.head? = some ';' ∧ Even (markedIn before)

/-- At each line, the pass that makes the records goes on in a body exactly where the pass that
shows them does not go on in a header. -/
def InStep (name : String) (records : List ListingLine) : Prop :=
  ∀ before after, records = before ++ after →
    let inBody := decide (Even (markedIn before))
    after = mark name inBody (after.map (·.code.toList)) ∧
      ∀ colour, rows colour false records =
        rows colour false before ++ rows colour (!inBody) after

section Whole

variable {name : String} {lines : List (List Char)}

/-- The codes of marked lines are the lines. -/
lemma map_toList_code_mark (name : String) (inBody : Bool) (lines : List (List Char)) :
    (mark name inBody lines).map (·.code.toList) = lines := by
  have hcode := congrArg (List.map String.toList) (map_code_mark name inBody lines)
  simpa [List.map_map, Function.comp_def] using hcode

/-- Records that are cut in two are the records of lines that are cut in two. -/
lemma exists_of_mark_eq_append {n : ℕ} {before after : List ListingLine}
    (h : mark name (decide (Even n)) lines = before ++ after) :
    ∃ first later, lines = first ++ later ∧ before = mark name (decide (Even n)) first ∧
      after = mark name (decide (Even (n + markedIn before))) later := by
  have hlength : lines.length = before.length + after.length := by
    rw [← List.length_append, ← h, ← map_toList_code_mark name (decide (Even n)) lines,
      List.length_map, map_toList_code_mark]
  have htake : ((mark name (decide (Even n)) (lines.take before.length))).length =
      before.length := by
    rw [← List.length_map, map_toList_code_mark, List.length_take_of_le (by omega)]
  have happend := mark_append name n (lines.take before.length) (lines.drop before.length)
  rw [List.take_append_drop, h] at happend
  obtain ⟨hbefore, hafter⟩ := List.append_inj happend htake.symm
  have hcount : markedIn before = dashedIn (lines.take before.length) :=
    (congrArg markedIn hbefore).trans (markedIn_mark ..)
  rw [← hcount] at hafter
  exact ⟨_, _, (List.take_append_drop before.length lines).symm, hbefore, hafter⟩

end Whole

/-- A listing begins in a body. -/
lemma ofListing_eq (name listing : String) :
    ofListing name listing = mark name (decide (Even 0)) (splitLines listing.toList) := rfl

/-- The records of a listing are made for its lines. -/
lemma isMarked_ofListing (name listing : String) :
    IsMarked listing (ofListing name listing) where
  intercalate_code := intercalate_code_ofListing name listing
  newline_notMem := by
    intro r hr
    have hcode := List.mem_map_of_mem (f := fun r : ListingLine => r.code.toList) hr
    rw [ofListing, map_toList_code_mark] at hcode
    exact not_mem_of_mem_splitLines hcode
  length_eq := by
    rw [← length_splitLines, ← List.length_map, ofListing, map_toList_code_mark]
  marker_isSome_iff := by
    intro r hr
    rw [ofListing_eq] at hr
    exact marker_isSome_iff_of_mem_mark hr
  markers_eq := by
    rw [ofListing_eq, filterMap_marker_mark, markedIn_mark, List.range_eq_range']
  of_line_pos := by
    intro before r after hrecords hpos
    rw [ofListing_eq] at hrecords
    obtain ⟨first, later, -, -, hafter⟩ := exists_of_mark_eq_append hrecords
    rw [Nat.zero_add] at hafter
    cases later with
    | nil => contradiction
    | cons code later =>
      cases hcode : dashes.toList.isPrefixOf code with
      | true =>
        rw [mark_cons_of_dashed hcode] at hafter
        obtain ⟨rfl, -⟩ := List.cons.inj hafter
        exact absurd hpos (lt_irrefl 0)
      | false =>
        rw [mark_cons_of_not_dashed hcode] at hafter
        obtain ⟨rfl, -⟩ := List.cons.inj hafter
        split at hpos
        · next heven =>
          refine ⟨rfl, ?_, heven⟩
          rw [String.toList_ofList]
          exact head?_of_lineOf_pos hpos
        · exact absurd hpos (lt_irrefl 0)

/-- The two passes over a listing are in step. -/
lemma inStep_ofListing (name listing : String) : InStep name (ofListing name listing) := by
  intro before after hrecords
  rw [ofListing_eq] at hrecords
  obtain ⟨first, later, -, hbefore, hafter⟩ := exists_of_mark_eq_append hrecords
  rw [Nat.zero_add] at hafter
  refine ⟨?_, ?_⟩
  · conv_rhs => rw [hafter, map_toList_code_mark]
    exact hafter
  · intro colour
    have hheader : headerAfter false before = !decide (Even (markedIn before)) := by
      rw [hbefore, markedIn_mark]
      simpa using headerAfter_mark name 0 first
    rw [ofListing_eq, hrecords, rows_append, hheader]

/-- **Headers and bodies are told alike when a listing is read and when it is shown.**  The records
of a listing are made for its lines, and the pass that shows them is in step with the pass that made
them; so without colour each line is shown as its code, with its source line in front if it has one.
Behind a listing with an even number of dashed lines, a listing is read as it is by itself. -/
theorem ofListing_marked_and_shown (name : String) :
    (∀ listing, IsMarked listing (ofListing name listing) ∧ InStep name (ofListing name listing) ∧
      listText false (ofListing name listing) =
        String.join ((ofListing name listing).map fun r =>
          (if 0 < r.line then s!"[{r.line}] " else "") ++ r.code ++ "\n")) ∧
    ∀ a b : String, Even (markedIn (ofListing name a)) →
      ofListing name (a ++ "\n" ++ b) = ofListing name a ++ ofListing name b := by
  constructor
  · intro listing
    refine ⟨isMarked_ofListing name listing, inStep_ofListing name listing, ?_⟩
    have hrows : rows false false (ofListing name listing) = (ofListing name listing).map shown :=
      rows_mark name 0 (splitLines listing.toList)
    rw [listText, hrows, List.map_map]
    rfl
  · intro a b heven
    have htext : (a ++ "\n" ++ b).toList = a.toList ++ '\n' :: b.toList := by
      simp [String.toList_append]
    rw [ofListing_eq name a, markedIn_mark] at heven
    rw [ofListing_eq, htext, splitLines_append_cons, mark_append, ofListing_eq, ofListing_eq,
      Nat.zero_add, decide_eq_true heven]
    rfl

/-- Behind a header, a comment refers to a source line, as it does in a listing by itself. -/
theorem ofListing_marked_and_shown_behind_header :
    let a := ";-----------------\n; source.c:99: a\n;------------------"
    let b := ";\tsource.c: 6: x++;\n;-----------------"
    Even (markedIn (ofListing "source.c" a)) ∧
      ofListing "source.c" (a ++ "\n" ++ b) =
        [⟨";-----------------", some ⟨.header, .before⟩, 0⟩, ⟨"; source.c:99: a", none, 0⟩,
          ⟨";------------------", some ⟨.body, .after⟩, 0⟩] ++
        [⟨";\tsource.c: 6: x++;", none, 6⟩, ⟨";-----------------", some ⟨.header, .before⟩, 0⟩] := by
  intro a b
  have heven : Even (markedIn (ofListing "source.c" a)) := by decide +kernel
  refine ⟨heven, ?_⟩
  rw [(ofListing_marked_and_shown "source.c").2 a b heven]
  decide +kernel

end ListingLine

end SectionLedger
