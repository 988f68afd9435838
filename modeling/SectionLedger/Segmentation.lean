import SectionLedger.Line.Opening
import SectionLedger.Section

/-!
# Segmentation

Cutting a file into spans.  The flat pass (`flatSpans`) walks over the lines: a line that opens a
section takes the section's lines with it, every other line is skipped.  The nested pass
(`nestedSpans`) cuts the body of every procedure again, to a given depth.

Lines are numbered by natural numbers, which have no largest one.  A program that counts lines in
machine words finds the same spans as long as the number of the last line, that is, of the lines
before and of the lines themselves together, fits a word (`Text.wordLimit`).
-/

namespace SectionLedger

/-- The spans found in one pass over lines, the first of which has the given number.  The number of
the last line is taken to fit a machine word. -/
def flatSpans (number : Nat) : List String → Except Fault (List Span)
  | [] => .ok []
  | line :: lines =>
    match Line.opening? line with
    | none => flatSpans (number + 1) lines
    | some o =>
      match o.extent.reach line lines with
      | .error construct => .error (.unterminated construct number)
      | .ok n => do
        let spans ← flatSpans (number + n + 1) (lines.drop n)
        return ⟨⟨number, number + n⟩, o.kind⟩ :: spans
termination_by lines => lines.length
decreasing_by all_goals simp only [List.length_cons, List.length_drop]; omega

namespace Span

/-- Whether a span is a procedure with lines of its own for a body. -/
def hasBody (s : Span) : Bool := s.kind == Kind.procedure && s.first != s.last

/-- The lines strictly between the first and the last line of a span, among lines the first of
which has the number after `offset`. -/
def body (s : Span) (offset : Nat) (lines : List String) : List String :=
  (lines.drop (s.first - offset)).take (s.last - 1 - s.first)

end Span

/-- The spans found in lines that follow `offset` others, with the spans found in the bodies of
procedures up to `depth` levels deep after the procedures of a level.  The number of the last line,
`offset` and the number of the lines together, is taken to fit a machine word. -/
def nestedSpans : (depth : Nat) → (offset : Nat) → List String → Except Fault (List Span)
  | 0, offset, lines => flatSpans (offset + 1) lines
  | depth + 1, offset, lines => do
    let spans ← flatSpans (offset + 1) lines
    let inner ← (spans.filter Span.hasBody).mapM fun s =>
      nestedSpans depth s.first (s.body offset lines)
    return spans ++ inner.flatten

/-- How deep the bodies of procedures are cut when a whole file is. -/
def fileDepth : Nat := 1

/-- The spans of a whole file. -/
def fileSpans (lines : List String) : Except Fault (List Span) := nestedSpans fileDepth 0 lines

end SectionLedger
