import Mathlib
import SectionLedger.Text.Blank
import SectionLedger.Text.Digit
import SectionLedger.Text.Word

/-!
# Runs of characters

Numbers, names and white space are read by taking the run of one class of characters off the front
of a text.  A run goes on until the class ends (`takeWhile_run`, `dropWhile_run`), whatever stands
behind, and two runs side by side are told apart because their classes are disjoint: no digit and no
character of a word is blank.  In the same way a text is trimmed by taking blanks off its ends.
-/

namespace SectionLedger.Text

/-! ### Classes of characters -/

section Classes

variable {c : Char}

/-- A digit is no blank. -/
lemma isBlank_eq_false_of_isDigit (h : c.isDigit = true) : isBlank c = false := by
  have hrange : 48 ≤ c.toNat ∧ c.toNat ≤ 57 := by
    simpa [Char.isDigit, UInt32.le_iff_toNat_le] using h
  rw [isBlank, Bool.eq_false_iff, Ne, CharTable.has_iff]
  rintro ⟨range, hmem, hlow, hhigh⟩
  simp only [blankTable, List.mem_cons, List.not_mem_nil, or_false] at hmem
  rcases hmem with rfl | rfl | rfl | rfl | rfl | rfl | rfl | rfl | rfl | rfl <;>
    simp only at hlow hhigh <;> omega

/-- Every digit of ASCII is a decimal digit. -/
lemma isDecimalDigit_of_isDigit (h : c.isDigit = true) : isDecimalDigit c = true := by
  have hrange : 48 ≤ c.toNat ∧ c.toNat ≤ 57 := by
    simpa [Char.isDigit, UInt32.le_iff_toNat_le] using h
  rw [isDecimalDigit, CharTable.has_iff]
  exact ⟨(0x30, 0x39), List.mem_cons_self, hrange⟩

set_option maxRecDepth 4000 in
/-- No blank is a character of a word. -/
lemma isWord_eq_false_of_isBlank (h : isBlank c = true) : isWord c = false := by
  have htables : (blankTable.all fun b => wordTable.all fun w =>
      decide (b.2 < w.1) || decide (w.2 < b.1)) = true := by decide +kernel
  rw [isBlank, CharTable.has_iff] at h
  obtain ⟨b, hb, hlow, hhigh⟩ := h
  rw [isWord, Bool.eq_false_iff, Ne, CharTable.has_iff]
  rintro ⟨w, hw, hlow', hhigh'⟩
  have hapart := List.all_eq_true.mp (List.all_eq_true.mp htables b hb) w hw
  rw [Bool.or_eq_true, decide_eq_true_eq, decide_eq_true_eq] at hapart
  omega

set_option maxRecDepth 2000 in
/-- An opening bracket is no character of a word. -/
lemma isWord_bracket : isWord '(' = false := by decide +kernel

end Classes

/-! ### Runs at the front -/

section Run

variable {p : Char → Bool} {run rest s : List Char} {c : Char}

/-- What follows a text does not change the run that the text begins with, if the run does not go on
there. -/
lemma takeWhile_append_eq (hrest : ∀ c ∈ rest.head?, p c = false) (s : List Char) :
    (s ++ rest).takeWhile p = s.takeWhile p := by
  have hstop : rest.takeWhile p = [] := by
    cases rest with
    | nil => rfl
    | cons c rest => rw [List.takeWhile_cons, hrest c rfl, if_neg Bool.false_ne_true]
  rw [List.takeWhile_append, hstop, List.append_nil]
  split
  · next hall => exact ((List.takeWhile_prefix _).eq_of_length hall).symm
  · rfl

/-- A run is taken as far as it goes. -/
lemma takeWhile_run (hrun : ∀ c ∈ run, p c = true) (hrest : ∀ c ∈ rest.head?, p c = false) :
    (run ++ rest).takeWhile p = run := by
  rw [takeWhile_append_eq hrest, List.takeWhile_eq_self_iff]
  exact hrun

/-- What follows a run is left. -/
lemma dropWhile_run (hrun : ∀ c ∈ run, p c = true) (hrest : ∀ c ∈ rest.head?, p c = false) :
    (run ++ rest).dropWhile p = rest := by
  rw [List.dropWhile_append_of_pos hrun]
  cases rest with
  | nil => rfl
  | cons c rest => rw [List.dropWhile_cons, hrest c rfl, if_neg Bool.false_ne_true]

/-- A run ends where the class does. -/
lemma head?_dropWhile_eq_false (p : Char → Bool) (s : List Char) :
    ∀ c ∈ (s.dropWhile p).head?, p c = false := by
  intro c hc
  have hhead := List.head?_dropWhile_not p s
  rw [Option.mem_def.mp hc] at hhead
  exact hhead

/-- A character that ends a run stands behind it. -/
lemma head?_dropWhile_eq_some_iff (hc : p c = false) :
    (s.dropWhile p).head? = some c ↔
      ∃ run rest, s = run ++ c :: rest ∧ ∀ x ∈ run, p x = true := by
  constructor
  · intro hhead
    obtain ⟨rest, hrest⟩ := List.head?_eq_some_iff.mp hhead
    refine ⟨s.takeWhile p, rest, ?_, fun x => List.mem_takeWhile_imp⟩
    rw [← hrest, List.takeWhile_append_dropWhile]
  · rintro ⟨run, rest, rfl, hrun⟩
    have hstop : ∀ x ∈ (c :: rest).head?, p x = false := by
      intro x hx
      obtain rfl := Option.some.inj hx
      exact hc
    rw [dropWhile_run hrun hstop]
    rfl

end Run

/-! ### Blanks at the ends -/

section Trim

variable {s : List Char}

/-- A text is its trimmed end followed by blanks. -/
lemma exists_trimEnd_append (s : List Char) :
    ∃ blanks, s = trimEnd s ++ blanks ∧ ∀ c ∈ blanks, isBlank c = true := by
  refine ⟨(s.reverse.takeWhile isBlank).reverse, ?_, ?_⟩
  · rw [trimEnd, ← List.reverse_append, List.takeWhile_append_dropWhile, List.reverse_reverse]
  · intro c hc
    exact List.mem_takeWhile_imp (List.mem_reverse.mp hc)

/-- A text trims to nothing at its end exactly if it is blank. -/
lemma trimEnd_eq_nil_iff : trimEnd s = [] ↔ ∀ c ∈ s, isBlank c = true := by
  rw [trimEnd, List.reverse_eq_nil_iff, List.dropWhile_eq_nil_iff]
  simp only [List.mem_reverse]

/-- A text trims to nothing exactly if it is blank. -/
lemma trim_eq_nil_iff : trim s = [] ↔ ∀ c ∈ s, isBlank c = true := by
  rw [trim, trimEnd_eq_nil_iff]
  constructor
  · intro hblank
    rw [← trimStart_eq_nil_iff]
    by_contra hne
    have hhead := List.head_dropWhile_not isBlank hne
    exact Bool.false_ne_true (hhead.symm.trans (hblank _ (List.head_mem hne)))
  · intro hblank
    rw [trimStart_eq_nil_iff.mpr hblank]
    simp

/-- A text is its trimmed text with blanks on either side. -/
lemma exists_append_trim_append (s : List Char) :
    ∃ before after, s = before ++ (trim s ++ after) ∧ (∀ c ∈ before, isBlank c = true) ∧
      ∀ c ∈ after, isBlank c = true := by
  obtain ⟨after, hafter, hblank⟩ := exists_trimEnd_append (trimStart s)
  refine ⟨s.takeWhile isBlank, after, ?_, fun c => List.mem_takeWhile_imp, hblank⟩
  rw [trim, ← hafter, trimStart, List.takeWhile_append_dropWhile]

/-- Blanks behind a text are trimmed. -/
lemma trim_append_blanks {blanks : List Char} (h : ∀ c ∈ blanks, isBlank c = true)
    (s : List Char) : trim (s ++ blanks) = trim s := by
  have hend : ∀ t : List Char, trimEnd (t ++ blanks) = trimEnd t := by
    intro t
    rw [trimEnd, trimEnd, List.reverse_append, List.dropWhile_append_of_pos (by simpa using h)]
  rw [trim, trim, trimStart, trimStart, List.dropWhile_append]
  split
  · next hnone =>
    -- both texts are blank
    rw [List.isEmpty_iff.mp hnone, List.dropWhile_eq_nil_iff.mpr h]
  · exact hend _

/-- A character that is no blank stands in a text as often as in its trimmed text. -/
lemma count_trim {c : Char} (hc : isBlank c = false) (s : List Char) :
    (trim s).count c = s.count c := by
  obtain ⟨before, after, hs, hbefore, hafter⟩ := exists_append_trim_append s
  have hnone : ∀ blanks : List Char, (∀ x ∈ blanks, isBlank x = true) → blanks.count c = 0 := by
    intro blanks hblanks
    refine List.count_eq_zero.mpr fun hmem => ?_
    rw [hblanks c hmem] at hc
    contradiction
  conv_rhs => rw [hs]
  rw [List.count_append, List.count_append, hnone before hbefore, hnone after hafter, Nat.zero_add,
    Nat.add_zero]

/-- A line feed behind a text that does not end in a blank is all that is trimmed. -/
lemma trimEnd_concat_newline (h : ∀ c ∈ s.getLast?, isBlank c = false) :
    trimEnd (s ++ ['\n']) = s := by
  have hnewline : ∀ c ∈ ['\n'], isBlank c = true := List.forall_mem_singleton.mpr (by decide)
  rw [← List.head?_reverse] at h
  rw [trimEnd, List.reverse_append, List.reverse_singleton, dropWhile_run hnewline h,
    List.reverse_reverse]

end Trim

/-! ### Numbers at the front -/

/-- What follows a text does not change the number that the text begins with, if it begins with no
digit. -/
lemma leadingNumber_append {rest : List Char} (h : ∀ c ∈ rest.head?, c.isDigit = false)
    (s : List Char) : leadingNumber (s ++ rest) = leadingNumber s := by
  rw [leadingNumber, leadingNumber, takeWhile_append_eq h]

/-- Blanks at the end of a text do not change the number that it begins with. -/
lemma leadingNumber_trimEnd (s : List Char) : leadingNumber (trimEnd s) = leadingNumber s := by
  obtain ⟨blanks, hs, hblanks⟩ := exists_trimEnd_append s
  have hnone : ∀ c ∈ blanks.head?, c.isDigit = false := by
    intro c hc
    by_contra hne
    have hblank : isBlank c = true := hblanks c (List.mem_of_head? hc)
    rw [isBlank_eq_false_of_isDigit (Bool.not_eq_false _ ▸ hne)] at hblank
    contradiction
  conv_rhs => rw [hs]
  exact (leadingNumber_append hnone (trimEnd s)).symm

/-- A text that begins with a positive number begins with digits of that number. -/
lemma exists_digits_of_leadingNumber_pos {s : List Char} (h : 0 < leadingNumber s) :
    ∃ digits behind, s = digits ++ behind ∧ digits ≠ [] ∧ (∀ c ∈ digits, c.isDigit = true) ∧
      digitsValue digits = leadingNumber s := by
  refine ⟨s.takeWhile Char.isDigit, s.dropWhile Char.isDigit,
    (List.takeWhile_append_dropWhile).symm, ?_, ?_, ?_⟩
  · intro hnil
    rw [leadingNumber, hnil, readWord?_nil] at h
    exact absurd h (lt_irrefl 0)
  · intro c hc
    exact List.mem_takeWhile_imp hc
  · unfold leadingNumber readWord? at h ⊢
    split at h
    · next hword => rw [if_pos hword, Option.getD_some]
    · exact absurd h (lt_irrefl 0)

end SectionLedger.Text
