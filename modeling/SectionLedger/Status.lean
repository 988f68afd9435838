/-!
# Compile statuses

The verdict that a compilation leaves on a section.  A section that no message concerns gets the
*residual* status: a file that compiled with warnings leaves its silent sections without warnings.
-/

namespace SectionLedger

/-- What a compilation says about a section. -/
inductive Status where
  | doesNotCompile
  | compiledWithWarnings
  | compiledWithoutWarnings
  deriving DecidableEq, Repr

namespace Status

/-- All statuses, from worst to best. -/
def all : List Status := [doesNotCompile, compiledWithWarnings, compiledWithoutWarnings]

/-- The text of a status, as it is stored and shown. -/
def label : Status → String
  | doesNotCompile => "Does not compile"
  | compiledWithWarnings => "Compiled with warnings"
  | compiledWithoutWarnings => "Compiled without warnings"

/-- The status with a given text. -/
def ofLabel? (text : String) : Option Status := all.find? fun s => s.label == text

/-- The status left for the sections that no message concerns. -/
def residual : Status → Status
  | doesNotCompile => doesNotCompile
  | compiledWithWarnings => compiledWithoutWarnings
  | compiledWithoutWarnings => compiledWithoutWarnings

@[simp] theorem ofLabel?_label (s : Status) : ofLabel? s.label = some s := by
  cases s <;> decide

end Status

end SectionLedger
