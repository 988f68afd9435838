import SectionLedger.Display.Basic

/-!
# Decorated sources on the terminal

A section is announced by a row before its first line and ended by a row after its last one; the
rows and lines between are indented by a level.  Rows are data first (`Row`), so that what is
printed can be reasoned about without its spelling.
-/

namespace SectionLedger

open Text

/-- A row of a decorated source, with its level of indentation. -/
inductive Row where
  | opening (level : Nat) (nesting : Nesting) (kind : Kind) (interval : Interval)
      (status : Option Status)
  | line (level : Nat) (number : Nat) (text : String)
  | closing (level : Nat)
  deriving DecidableEq, Repr

namespace Row

/-- The indentation of a level. -/
def indent (level : Nat) : String := String.ofList (List.replicate (2 * level) ' ')

/-- The sign in front of a section that begins. -/
def sign : Nesting → String
  | .outer => "┌"
  | .inner => "├"

/-- A row as a text. -/
def toText (colour : Bool) : Row → String
  | opening level nesting kind interval status =>
    indent level ++ Ink.blue.write colour (sign nesting) ++ " " ++
      Ink.boldCyan.write colour kind ++ s!" {interval.first}-{interval.last}" ++
      (match status with
        | some s => " [" ++ s.shown colour ++ "]"
        | none => "") ++ "\n"
  | line level number text =>
    Ink.dim.write colour (lineColumn number) ++ " " ++ indent level ++ text ++ "\n"
  | closing level => indent level ++ Ink.blue.write colour "└" ++ "\n"

end Row

namespace Decoration

/-- The row that announces the section beginning on a line, if one does. -/
def openingRows (level : Nat) (d : Decoration) : List Row :=
  match d.nesting, d.kind with
  | some nesting, some kind => [.opening level nesting kind ⟨d.first, d.last⟩ d.status]
  | _, _ => []

/-- The rows of decorated lines, the first of which stands at a level.  At level zero the row that
ends a section leaves the level as it is. -/
def rows (level : Nat) : List Decoration → List Row
  | [] => []
  | d :: ds =>
    let inside := level + (d.openingRows level).length
    d.openingRows level ++ .line inside d.line d.text ::
      if d.closes then .closing (inside - 1) :: rows (inside - 1) ds else rows inside ds

/-- Decorated lines on the terminal. -/
def listText (colour : Bool) (ds : List Decoration) : String :=
  String.join ((rows 0 ds).map (Row.toText colour))

def listDisplay (format : Format) (colour : Bool) (ds : List Decoration) : String :=
  format.render (listText colour ds) (.ofList toJson ds)

end Decoration

end SectionLedger
