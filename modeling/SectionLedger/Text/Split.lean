/-!
# Splitting texts

A text is split into lines at each line feed, and into fragments at each occurrence of a delimiter,
from left to right and without overlap.  Joining the lines gives the text back
(`joinLines_splitLines`), and so does splitting a join (`splitLines_joinLines`) when there is a line
and none holds a line feed.
-/

namespace SectionLedger.Text

/-- The lines of a text, which line feeds separate. -/
def splitLines : List Char → List (List Char)
  | [] => [[]]
  | c :: s =>
    if c = '\n' then [] :: splitLines s
    else match splitLines s with
      | [] => [[c]]
      | line :: lines => (c :: line) :: lines

/-- The lines with a line feed between them. -/
def joinLines : List (List Char) → List Char
  | [] => []
  | [line] => line
  | line :: lines => line ++ '\n' :: joinLines lines

theorem splitLines_ne_nil (s : List Char) : splitLines s ≠ [] := by
  cases s with
  | nil => simp [splitLines]
  | cons c s =>
    unfold splitLines
    split
    · simp
    · split <;> simp

@[simp] theorem joinLines_cons_cons (a b : List Char) (ls : List (List Char)) :
    joinLines (a :: b :: ls) = a ++ '\n' :: joinLines (b :: ls) := rfl

theorem joinLines_splitLines (s : List Char) : joinLines (splitLines s) = s := by
  induction s with
  | nil => rfl
  | cons c s ih =>
    unfold splitLines
    split
    · next h =>
      subst h
      obtain ⟨line, lines, hs⟩ := List.exists_cons_of_ne_nil (splitLines_ne_nil s)
      rw [hs] at ih ⊢
      simp [ih]
    · split
      · next h => exact absurd h (splitLines_ne_nil s)
      · next line lines h =>
        rw [h] at ih
        cases lines with
        | nil => simpa [joinLines] using ih
        | cons b ls => simpa using ih

/-- No line of a split holds a line feed. -/
theorem not_mem_of_mem_splitLines {s line : List Char} (h : line ∈ splitLines s) :
    '\n' ∉ line := by
  induction s generalizing line with
  | nil => simp_all [splitLines]
  | cons c s ih =>
    unfold splitLines at h
    split at h
    · rcases List.mem_cons.1 h with rfl | h
      · simp
      · exact ih h
    · next hc =>
      split at h
      · next hs => exact absurd hs (splitLines_ne_nil s)
      · next first lines hs =>
        rw [hs] at ih
        rcases List.mem_cons.1 h with rfl | h
        · simp only [List.mem_cons, not_or]
          exact ⟨fun e => hc e.symm, ih (by simp)⟩
        · exact ih (by simp [h])

theorem splitLines_append_newline {a : List Char} (ha : '\n' ∉ a) (b : List Char) :
    splitLines (a ++ '\n' :: b) = a :: splitLines b := by
  induction a with
  | nil => simp [splitLines]
  | cons c a ih =>
    obtain ⟨hc, ha⟩ := not_or.1 (fun h => ha (List.mem_cons.2 h))
    rw [List.cons_append, splitLines, if_neg (Ne.symm hc), ih ha]

theorem splitLines_of_not_mem {a : List Char} (ha : '\n' ∉ a) : splitLines a = [a] := by
  induction a with
  | nil => rfl
  | cons c a ih =>
    obtain ⟨hc, ha⟩ := not_or.1 (fun h => ha (List.mem_cons.2 h))
    rw [splitLines, if_neg (Ne.symm hc), ih ha]

theorem splitLines_joinLines {ls : List (List Char)} (hne : ls ≠ [])
    (h : ∀ line ∈ ls, '\n' ∉ line) : splitLines (joinLines ls) = ls := by
  induction ls with
  | nil => exact absurd rfl hne
  | cons a ls ih =>
    cases ls with
    | nil => exact splitLines_of_not_mem (h a (by simp))
    | cons b ls =>
      rw [joinLines_cons_cons, splitLines_append_newline (h a (by simp)),
        ih (by simp) fun line hl => h line (List.mem_cons_of_mem _ hl)]

/-- The text before the first occurrence of a delimiter and the text after it. -/
def cut? (delimiter : List Char) : List Char → Option (List Char × List Char)
  | [] => if delimiter.isEmpty then some ([], []) else none
  | c :: s =>
    if delimiter.isPrefixOf (c :: s) then some ([], (c :: s).drop delimiter.length)
    else (cut? delimiter s).map fun parts => (c :: parts.1, parts.2)

theorem cut?_eq_some {delimiter s before after : List Char}
    (h : cut? delimiter s = some (before, after)) : s = before ++ delimiter ++ after := by
  induction s generalizing before with
  | nil =>
    simp only [cut?, Option.ite_none_right_eq_some, List.isEmpty_iff, Option.some.injEq,
      Prod.mk.injEq] at h
    obtain ⟨rfl, rfl, rfl⟩ := h
    rfl
  | cons c s ih =>
    unfold cut? at h
    split at h
    · next hd =>
      simp only [Option.some.injEq, Prod.mk.injEq] at h
      obtain ⟨rfl, rfl⟩ := h
      have := List.isPrefixOf_iff_prefix.1 hd
      rw [List.nil_append]
      exact List.prefix_iff_eq_append.1 this |>.symm
    · obtain ⟨⟨b, a⟩, hb, he⟩ := Option.map_eq_some_iff.1 h
      simp only [Prod.mk.injEq] at he
      obtain ⟨rfl, rfl⟩ := he
      simp [ih hb]

/-- Cutting at a delimiter that is not empty leaves less than there was. -/
theorem length_lt_of_cut? {delimiter s before after : List Char}
    (h : cut? delimiter s = some (before, after)) (hd : delimiter ≠ []) :
    after.length < s.length := by
  have hpos := List.length_pos_iff.2 hd
  rw [cut?_eq_some h]
  simp only [List.length_append]
  omega

/-- The fragments between the occurrences of a delimiter, from left to right without overlap.
Between the occurrences of nothing there is nothing to cut. -/
def fragments (delimiter : List Char) (s : List Char) : List (List Char) :=
  match h : cut? delimiter s with
  | none => [s]
  | some (before, after) =>
    if hd : delimiter = [] then [before, after]
    else
      have := length_lt_of_cut? h hd
      before :: fragments delimiter after
termination_by s.length

end SectionLedger.Text
