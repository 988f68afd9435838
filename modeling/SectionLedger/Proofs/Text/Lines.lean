import Mathlib
import SectionLedger.Text.Split

/-!
# Lines put together again

Lines are joined with a line feed between any two (`ofList_joinLines`), so the lines of a text give
back the text (`intercalate_splitLines`).  A line feed at the end of a text is followed by an empty
line (`splitLines_concat_newline`), and lines with an empty one after them are joined to a text that
ends in a line feed (`joinLines_concat_nil`).
-/

namespace SectionLedger.Text

/-- Joined lines have a line feed between any two. -/
lemma joinLines_eq_intercalate (ls : List (List Char)) : joinLines ls = ['\n'].intercalate ls := by
  induction ls with
  | nil => rfl
  | cons line ls ih =>
    cases ls with
    | nil => simp [joinLines]
    | cons line' ls => simp [ih]

/-- Joined lines hold every character of each line. -/
lemma mem_joinLines {ls : List (List Char)} {line : List Char} (hline : line ∈ ls) {c : Char}
    (hc : c ∈ line) : c ∈ joinLines ls := by
  induction ls with
  | nil => exact absurd hline List.not_mem_nil
  | cons first ls ih =>
    cases ls with
    | nil =>
      obtain rfl := List.mem_singleton.mp hline
      exact hc
    | cons next ls =>
      rw [joinLines_cons_cons, List.mem_append, List.mem_cons]
      rcases List.mem_cons.mp hline with rfl | hline
      · exact .inl hc
      · exact .inr (.inr (ih hline))

/-- The text of joined lines is their texts with a line feed between any two. -/
lemma ofList_joinLines (ls : List (List Char)) :
    String.ofList (joinLines ls) = "\n".intercalate (ls.map String.ofList) := by
  have hlines : (ls.map String.ofList).map String.toList = ls := by
    simp [Function.comp_def]
  apply String.ext
  rw [String.toList_ofList, String.toList_intercalate, hlines, joinLines_eq_intercalate]
  rfl

/-- The lines of a text, with a line feed between any two, are the text. -/
lemma intercalate_splitLines (text : String) :
    "\n".intercalate ((splitLines text.toList).map String.ofList) = text := by
  rw [← ofList_joinLines, joinLines_splitLines, String.ofList_toList]

/-- Lines and an empty line after them are joined to a text with a line feed at the end. -/
lemma joinLines_concat_nil {ls : List (List Char)} (h : ls ≠ []) :
    joinLines (ls ++ [[]]) = joinLines ls ++ ['\n'] := by
  induction ls with
  | nil => exact absurd rfl h
  | cons line ls ih =>
    cases ls with
    | nil => rfl
    | cons line' ls =>
      have htail := ih (List.cons_ne_nil line' ls)
      rw [List.cons_append] at htail
      rw [List.cons_append, List.cons_append, joinLines_cons_cons, joinLines_cons_cons, htail]
      simp

/-- The lines of two texts with a line feed between them are those of the first and those of the
second. -/
lemma splitLines_append_cons (a b : List Char) :
    splitLines (a ++ '\n' :: b) = splitLines a ++ splitLines b := by
  induction a with
  | nil => rfl
  | cons c a ih =>
    rw [List.cons_append, splitLines, splitLines, ih]
    split
    · rfl
    · obtain ⟨line, lines, hs⟩ := List.exists_cons_of_ne_nil (splitLines_ne_nil a)
      rw [hs]
      rfl

/-- A line feed at the end of a text is followed by one more line, which is empty. -/
lemma splitLines_concat_newline (s : List Char) :
    splitLines (s ++ ['\n']) = splitLines s ++ [[]] := splitLines_append_cons s []

/-- A text has one line more than line feeds. -/
lemma length_splitLines (s : List Char) : (splitLines s).length = s.count '\n' + 1 := by
  induction s with
  | nil => rfl
  | cons c s ih =>
    rw [splitLines]
    split
    · next hc => rw [List.length_cons, ih, hc, List.count_cons_self]
    · next hc =>
      obtain ⟨line, lines, hs⟩ := List.exists_cons_of_ne_nil (splitLines_ne_nil s)
      rw [List.count_cons_of_ne hc, ← ih, hs]
      rfl

end SectionLedger.Text
