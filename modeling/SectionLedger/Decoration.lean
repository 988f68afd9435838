import SectionLedger.Section

/-!
# Decorations

The decoration of a line says which section begins on it, whether that one lies inside another, and
whether a section ends on it.  `decorate` gives one decoration for each line of a file.
-/

namespace SectionLedger

/-- Whether a section lies inside another one. -/
inductive Nesting where
  | outer
  | inner
  deriving DecidableEq, Repr

namespace Nesting

/-- The name of a nesting, as it is stored. -/
def label : Nesting → String
  | outer => "outer"
  | inner => "inner"

/-- The nesting with a given name. -/
def ofLabel? (text : String) : Option Nesting := [outer, inner].find? fun n => n.label == text

/-- The style class that a page shows a nesting in. -/
def styleClass : Nesting → String
  | outer => "code-section-outer"
  | inner => "code-section-inner"

end Nesting

/-- A line with what begins and ends on it. -/
structure Decoration where
  line : Nat
  text : String
  /-- The lines of the section that begins here; zero if none does. -/
  first : Nat
  last : Nat
  nesting : Option Nesting
  kind : Option Kind
  status : Option Status
  closes : Bool
  deriving DecidableEq, Repr

namespace Decoration

/-- Whether nothing begins or ends on the line. -/
def isPlain (d : Decoration) : Bool := d.nesting.isNone && !d.closes

end Decoration

namespace Section

/-- Whether a section lies inside one of the sections of a list. -/
def nesting (sections : List Section) (s : Section) : Nesting :=
  if sections.any fun other => other.strictlyContains s.toInterval then .inner else .outer

end Section

/-- The decoration of a line. -/
def decorateLine (sections : List Section) (line : Nat) (text : String) : Decoration :=
  let closes := sections.any fun s => s.last == line
  match sections.find? fun s => s.first == line with
  | none => ⟨line, text, 0, 0, none, none, none, closes⟩
  | some s =>
    ⟨line, text, s.first, s.last, some (s.nesting sections), some s.kind, s.status, closes⟩

/-- The decorations of lines, the first of which has the given number. -/
def decorateFrom (sections : List Section) (number : Nat) : List String → List Decoration
  | [] => []
  | text :: texts =>
    decorateLine sections number text :: decorateFrom sections (number + 1) texts

/-- The decorations of the lines of a file. -/
def decorate (lines : List String) (sections : List Section) : List Decoration :=
  decorateFrom sections 1 lines

end SectionLedger
