import SectionLedger.Interval
import SectionLedger.Kind
import SectionLedger.Status

/-!
# Spans and sections

A span is an interval of lines with a kind, as segmentation finds it.  A section is a span that a
ledger keeps for a file, with the text it covered when it was made and the verdict of the last
compilation.
-/

namespace SectionLedger

/-- A line interval with a kind. -/
structure Span extends Interval where
  kind : Kind
  deriving DecidableEq, Repr

/-- The number that stands for a file in the ledger. -/
abbrev FileId := Nat

/-- A span kept for a file. -/
structure Section extends Span where
  file : FileId
  /-- None until a compilation has been applied. -/
  status : Option Status
  /-- The messages that concern the section, each followed by a comma. -/
  statusData : String
  /-- The covered lines at the time the section was made. -/
  snapshot : String
  name : String
  description : String
  deriving DecidableEq, Repr

namespace Section

/-- The section without a verdict. -/
def reset (s : Section) : Section := { s with status := none, statusData := "" }

/-- The section with a status and one more message. -/
def annotate (s : Section) (status : Status) (text : String) : Section :=
  { s with status := some status, statusData := s.statusData ++ text ++ "," }

/-- The section with a status, unless it has one already. -/
def settle (s : Section) (status : Status) : Section :=
  { s with status := s.status.or (some status) }

/-- The section with no verdict for a new span of lines. -/
def fresh (file : FileId) (span : Span) (snapshot name description : String) : Section :=
  { toSpan := span, file, status := none, statusData := "", snapshot, name, description }

@[simp] theorem reset_toSpan (s : Section) : s.reset.toSpan = s.toSpan := rfl

@[simp] theorem annotate_toSpan (s : Section) (status : Status) (text : String) :
    (s.annotate status text).toSpan = s.toSpan := rfl

end Section

end SectionLedger
