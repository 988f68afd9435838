import Mathlib
import SectionLedger.Source
import SectionLedger.Proofs.Segmentation.Trailing
import SectionLedger.Proofs.Text.Lines

/-!
# A source that is written and read again

A source remembers whether its file ended in a line feed, and writes that line feed after its lines.
Read again, the lines are the same but in two cases (`IsSplit.lines_ofFile_fileText_eq_iff`).  A
source without lines is read back with an empty one.  Without a line feed at the end, the one before
an empty last line ends the file, and the empty line is lost (`LosesLast`).  Either way the lines
differ by an empty one at the end (`SameLines`), which is in no section, so the source is cut the
same (`SameLines.nestedSpans_eq`).
-/

namespace SectionLedger

namespace Source

variable {s : Source} {a b : List String} {i : Interval}

/-! ### Lines without line feeds -/

/-- No line of a source holds a line feed. -/
def IsSplit (s : Source) : Prop := ∀ line ∈ s.lines, '\n' ∉ line.toList

/-- The lines of a text hold no line feed. -/
lemma isSplit_ofText (text : String) : (ofText text).IsSplit := by
  intro line hline
  obtain ⟨chars, hchars, rfl⟩ := List.mem_map.mp hline
  rw [String.toList_ofList]
  exact Text.not_mem_of_mem_splitLines hchars

/-- The lines of a file hold no line feed. -/
lemma isSplit_ofFile (text : String) : (ofFile text).IsSplit := by
  unfold ofFile
  split
  · exact isSplit_ofText _
  · exact isSplit_ofText _

/-- The lines that are left when others go hold no line feed if none did. -/
lemma IsSplit.without (h : s.IsSplit) (i : Interval) : (s.without i).IsSplit := by
  intro line hline
  rcases List.mem_append.mp hline with hline | hline
  · exact h line (List.mem_of_mem_take hline)
  · exact h line (List.mem_of_mem_drop hline)

/-- The text of a source is split at its line feeds into the lines of the source. -/
lemma IsSplit.splitLines_text (h : s.IsSplit) (hne : s.lines ≠ []) :
    Text.splitLines s.text.toList = s.lines.map String.toList := by
  have hlines : ∀ line ∈ s.lines.map String.toList, '\n' ∉ line := by
    rw [List.forall_mem_map]
    exact h
  rw [text, String.toList_ofList]
  exact Text.splitLines_joinLines (mt List.map_eq_nil_iff.mp hne) hlines

/-- The lines of the text of a source are the lines of the source. -/
lemma IsSplit.lines_ofText_text (h : s.IsSplit) (hne : s.lines ≠ []) :
    (ofText s.text).lines = s.lines := by
  have hlines : (s.lines.map String.toList).map String.ofList = s.lines := by
    simp [Function.comp_def]
  rw [ofText, h.splitLines_text hne, hlines]

/-! ### Lines that are deleted -/

/-- A range of lines is deleted, and nothing else can be. -/
lemma deleteRange_eq_ok_iff {s' : Source} :
    s.deleteRange i = .ok s' ↔ s.Covers i ∧ s.without i = s' := by
  constructor
  · intro h
    obtain ⟨_, hrange, h⟩ := exists_of_bind_eq_ok h
    exact ⟨checkRange_eq_ok_iff.mp hrange, Except.ok.inj h⟩
  · rintro ⟨hcovers, rfl⟩
    rw [deleteRange, checkRange_eq_ok_iff.mpr hcovers]
    rfl

/-- A source that is written as the empty text has at most one line, and no line feed after it. -/
lemma length_lines_le_one_of_fileText_eq_empty (h : s.fileText = "") :
    s.endsInNewline = false ∧ s.lines.length ≤ 1 := by
  obtain ⟨lines, newline⟩ := s
  cases newline with
  | true =>
    have hlength := congrArg String.length h
    simp [fileText] at hlength
  | false =>
    refine ⟨rfl, ?_⟩
    -- two lines would have a line feed between them
    rcases lines with _ | ⟨line, _ | ⟨line', lines⟩⟩
    · exact Nat.zero_le 1
    · exact le_rfl
    · have hchars := congrArg String.toList h
      simp [fileText, text] at hchars

/-- Such a source is still written as the empty text when its line is deleted. -/
lemma fileText_without_of_empty (h : s.fileText = "") (hcovers : s.Covers i) :
    (s.without i).fileText = "" := by
  obtain ⟨hnewline, hlength⟩ := length_lines_le_one_of_fileText_eq_empty h
  obtain ⟨h1, h2, h3⟩ := hcovers
  have hfirst : i.first - 1 = 0 := by omega
  have hlines : (s.without i).lines = [] := by
    rw [without, hfirst, List.take_zero, List.nil_append]
    exact List.drop_of_length_le (by omega)
  rw [fileText, text, hlines, show (s.without i).endsInNewline = false from hnewline]
  rfl

/-! ### Texts that end in a line feed -/

/-- A text has a line. -/
lemma lines_ofText_ne_nil (t : String) : (ofText t).lines ≠ [] := by
  rw [ofText, ne_eq, List.map_eq_nil_iff]
  exact Text.splitLines_ne_nil t.toList

/-- A line feed at the end of a text is followed by an empty line. -/
lemma lines_ofText_append_newline (t : String) :
    (ofText (t ++ "\n")).lines = (ofText t).lines ++ [""] := by
  have htext : (t ++ "\n").toList = t.toList ++ ['\n'] := by simp
  rw [ofText, ofText, htext, Text.splitLines_concat_newline, List.map_append]
  rfl

/-- A line feed at the end of a file ends its last line. -/
lemma lines_ofFile_append_newline (t : String) :
    (ofFile (t ++ "\n")).lines = (ofText t).lines := by
  have hlast : (t ++ "\n").toList.getLast? = some '\n' := by simp
  have hinit : String.ofList (t ++ "\n").toList.dropLast = t := by simp
  rw [ofFile, if_pos hlast, hinit]

/-- A text with a line feed at the end is another text and the line feed. -/
lemma exists_eq_append_newline {t : String} (h : t.toList.getLast? = some '\n') :
    ∃ u, t = u ++ "\n" := by
  refine ⟨String.ofList t.toList.dropLast, String.ext ?_⟩
  rw [String.toList_append, String.toList_ofList]
  exact (List.dropLast_append_getLast? '\n' h).symm

/-! ### The lines that are read back -/

/-- The last line of several is empty, and the source has no line feed to write after it.  The line
feed before it then ends the file, and an empty line after that is no line. -/
def LosesLast (s : Source) : Prop :=
  s.endsInNewline = false ∧ 2 ≤ s.lines.length ∧ s.lines.getLast? = some ""

instance (s : Source) : Decidable s.LosesLast := inferInstanceAs (Decidable (_ ∧ _))

/-- Such a source has lines before an empty last one. -/
lemma losesLast_iff :
    s.LosesLast ↔ s.endsInNewline = false ∧ ∃ lines ≠ [], s.lines = lines ++ [""] := by
  refine and_congr_right fun _ => ⟨?_, ?_⟩
  · rintro ⟨hlength, hlast⟩
    refine ⟨s.lines.dropLast, ?_, (List.dropLast_append_getLast? "" hlast).symm⟩
    rw [← List.length_pos_iff, List.length_dropLast]
    omega
  · rintro ⟨lines, hne, hlines⟩
    have hpos := List.length_pos_iff.mpr hne
    rw [hlines, List.length_append, List.length_singleton]
    exact ⟨by omega, List.getLast?_concat⟩

/-- A source without lines is read back with one empty line. -/
lemma lines_ofFile_fileText_of_nil (h : s.lines = []) : (ofFile s.fileText).lines = [""] := by
  have htext : s.text = "" := by
    rw [text, h]
    rfl
  rw [fileText, htext]
  cases s.endsInNewline <;> rfl

/-- A source that loses its last line is read back without it. -/
lemma IsSplit.lines_ofFile_fileText_of_losesLast (h : s.IsSplit) (hlast : s.LosesLast) :
    s.lines = (ofFile s.fileText).lines ++ [""] := by
  obtain ⟨hnewline, lines, hne, hlines⟩ := losesLast_iff.mp hlast
  have hinit : IsSplit ⟨lines, false⟩ := by
    intro line hline
    exact h line (hlines ▸ List.mem_append_left [""] hline)
  have htext : s.fileText = text ⟨lines, false⟩ ++ "\n" := by
    have hmap : s.lines.map String.toList = lines.map String.toList ++ [[]] := by
      rw [hlines, List.map_append]
      rfl
    have hne' : lines.map String.toList ≠ [] := mt List.map_eq_nil_iff.mp hne
    rw [fileText, hnewline, if_neg Bool.false_ne_true, text, hmap, Text.joinLines_concat_nil hne',
      String.ofList_append]
    rfl
  rw [htext, lines_ofFile_append_newline, hinit.lines_ofText_text hne, hlines]

/-- Any other source is read back with its lines. -/
lemma IsSplit.lines_ofFile_fileText (h : s.IsSplit) (hne : s.lines ≠ []) (hlast : ¬ s.LosesLast) :
    (ofFile s.fileText).lines = s.lines := by
  unfold fileText
  cases hnewline : s.endsInNewline with
  | true => rw [if_pos rfl, lines_ofFile_append_newline, h.lines_ofText_text hne]
  | false =>
    -- a line feed at the end of the text would be followed by an empty last line
    have hend : s.text.toList.getLast? ≠ some '\n' := by
      intro hend
      obtain ⟨u, hu⟩ := exists_eq_append_newline hend
      refine hlast (losesLast_iff.mpr ⟨hnewline, _, lines_ofText_ne_nil u, ?_⟩)
      rw [← lines_ofText_append_newline, ← hu, h.lines_ofText_text hne]
    rw [if_neg Bool.false_ne_true, ofFile, if_neg hend, h.lines_ofText_text hne]

/-- **A source is read back with its lines** if it has any, and the last one is not lost. -/
theorem IsSplit.lines_ofFile_fileText_eq_iff (h : s.IsSplit) :
    (ofFile s.fileText).lines = s.lines ↔ s.lines ≠ [] ∧ ¬ s.LosesLast := by
  refine ⟨fun hsame => ⟨?_, ?_⟩, fun hkept => h.lines_ofFile_fileText hkept.1 hkept.2⟩
  · intro hnil
    rw [lines_ofFile_fileText_of_nil hnil, hnil] at hsame
    contradiction
  · intro hlast
    have hlost := h.lines_ofFile_fileText_of_losesLast hlast
    rw [hsame] at hlost
    simp at hlost

/-! ### Lines that differ by an empty one at the end -/

/-- Lines are the same, or the same with an empty line after one of them. -/
def SameLines (a b : List String) : Prop := a = b ∨ a = b ++ [""] ∨ b = a ++ [""]

namespace SameLines

/-- The first lines are the same. -/
lemma take_eq (h : SameLines a b) {n : ℕ} (ha : n ≤ a.length) (hb : n ≤ b.length) :
    a.take n = b.take n := by
  rcases h with rfl | rfl | rfl
  · rfl
  · rw [List.take_append_of_le_length hb]
  · rw [List.take_append_of_le_length ha]

/-- The same lines are cut the same, to every depth. -/
lemma nestedSpans_eq (h : SameLines a b) (depth offset : ℕ) :
    nestedSpans depth offset a = nestedSpans depth offset b := by
  rcases h with rfl | rfl | rfl
  · rfl
  · exact nestedSpans_append_empty depth offset b
  · exact (nestedSpans_append_empty depth offset a).symm

/-- The same lines are cut the same as a file. -/
lemma fileSpans_eq (h : SameLines a b) : fileSpans a = fileSpans b := h.nestedSpans_eq fileDepth 0

/-- A range of both sources has the same text in both. -/
lemma excerpt_eq {s s' : Source} (h : SameLines s.lines s'.lines) (hs : s.Covers i)
    (hs' : s'.Covers i) : s.excerpt i = s'.excerpt i := by
  rw [excerpt, excerpt, h.take_eq hs.2.2 hs'.2.2]

end SameLines

/-- The lines of the file that a source is written to are the lines of the source, but for an empty
line at the end. -/
theorem sameLines_ofFile_fileText (h : s.IsSplit) :
    SameLines (ofFile s.fileText).lines s.lines := by
  by_cases hnil : s.lines = []
  · refine .inr (.inl ?_)
    rw [lines_ofFile_fileText_of_nil hnil, hnil]
    rfl
  · by_cases hlast : s.LosesLast
    · exact .inr (.inr (h.lines_ofFile_fileText_of_losesLast hlast))
    · exact .inl (h.lines_ofFile_fileText hnil hlast)

end Source

end SectionLedger
