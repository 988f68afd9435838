import SectionLedger.Fault
import SectionLedger.Interval
import SectionLedger.Text.Split

/-!
# Source texts

A source is the sequence of lines of one file, addressed from one.  A file that ends in a line feed
has no empty last line; the source remembers the line feed, so that the text of the file can be
given back exactly (`fileText_ofFile`).
-/

namespace SectionLedger

/-- The lines of a file. -/
structure Source where
  lines : List String
  /-- Whether a line feed at the end of the file was taken off. -/
  endsInNewline : Bool := false
  deriving DecidableEq, Repr

namespace Source

/-- The lines of a text, which every line feed separates. -/
def ofText (text : String) : Source :=
  ⟨(Text.splitLines text.toList).map String.ofList, false⟩

/-- The lines of a file with a given text: a line feed at the end ends the last line. -/
def ofFile (text : String) : Source :=
  if text.toList.getLast? = some '\n' then
    { ofText (String.ofList text.toList.dropLast) with endsInNewline := true }
  else ofText text

/-- The lines with a line feed between them. -/
def text (s : Source) : String := String.ofList (Text.joinLines (s.lines.map String.toList))

/-- The text of the file: the lines, and the line feed taken off. -/
def fileText (s : Source) : String := if s.endsInNewline then s.text ++ "\n" else s.text

/-- Whether an interval is a nonempty range of lines of the source. -/
def Covers (s : Source) (i : Interval) : Prop :=
  1 ≤ i.first ∧ i.first ≤ i.last ∧ i.last ≤ s.lines.length

instance (s : Source) (i : Interval) : Decidable (s.Covers i) := inferInstanceAs (Decidable (_ ∧ _))

/-- Refuses an interval that is no range of lines of the source. -/
def checkRange (s : Source) (i : Interval) : Except Fault Unit :=
  if s.Covers i then .ok () else .error (.badRange i.first i.last s.lines.length)

/-- The lines of an interval with a line feed between them. -/
def excerpt (s : Source) (i : Interval) : String :=
  text ⟨(s.lines.take i.last).drop (i.first - 1), false⟩

/-- The source without the lines of an interval. -/
def without (s : Source) (i : Interval) : Source :=
  { s with lines := s.lines.take (i.first - 1) ++ s.lines.drop i.last }

/-- The text of a range of lines. -/
def snapshot (s : Source) (i : Interval) : Except Fault String := do
  s.checkRange i
  return s.excerpt i

/-- The source without a range of lines. -/
def deleteRange (s : Source) (i : Interval) : Except Fault Source := do
  s.checkRange i
  return s.without i

@[simp] theorem text_ofText (t : String) : (ofText t).text = t := by
  simp [ofText, text, List.map_map, Function.comp_def, Text.joinLines_splitLines]

theorem fileText_ofFile (t : String) : (ofFile t).fileText = t := by
  unfold ofFile
  split
  · next h =>
    have hne : t.toList ≠ [] := by intro he; simp [he] at h
    have hl : t.toList.getLast hne = '\n' := by
      rw [List.getLast?_eq_some_getLast hne] at h
      exact Option.some.inj h
    have : t.toList = t.toList.dropLast ++ ['\n'] := by
      rw [← hl]; exact (List.dropLast_concat_getLast hne).symm
    have htext : ∀ u b, ({ ofText u with endsInNewline := b } : Source).text = u := fun u b => by
      have := text_ofText u
      simpa [text] using this
    simp only [fileText, if_true, htext]
    apply String.ext
    simp [← this]
  · simp [fileText, ofText]
    exact text_ofText t

theorem checkRange_eq_ok_iff {s : Source} {i : Interval} :
    s.checkRange i = .ok () ↔ s.Covers i := by
  unfold checkRange
  split <;> simp_all

end Source

end SectionLedger
