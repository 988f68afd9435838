import SectionLedger.Text.Split

/-!
# Terminal colours and columns

A piece of text is written in an ink: the terminal sequence that starts the ink, the text, and the
sequence that ends every ink.  A text may hold the ending sequence itself; the ink is started again
after each of them.  Columns are filled with spaces, inside the ink.
-/

namespace SectionLedger.Text

/-- The text with spaces after it, up to a width. -/
def padEnd (width : Nat) (s : List Char) : List Char := s ++ List.replicate (width - s.length) ' '

/-- The text with spaces before it, up to a width. -/
def padStart (width : Nat) (s : List Char) : List Char := List.replicate (width - s.length) ' ' ++ s

/-- How a terminal shows a piece of text. -/
inductive Ink where
  | bold
  | dim
  | red
  | green
  | yellow
  | blue
  | cyan
  | boldRed
  | boldGreen
  | boldYellow
  | boldCyan
  deriving DecidableEq, Repr

namespace Ink

/-- The number that the terminal knows an ink by. -/
def code : Ink → String
  | bold => "1"
  | dim => "2"
  | red => "31"
  | green => "32"
  | yellow => "33"
  | blue => "34"
  | cyan => "36"
  | boldRed => "1;31"
  | boldGreen => "1;32"
  | boldYellow => "1;33"
  | boldCyan => "1;36"

/-- The sequence that starts an ink. -/
def start (ink : Ink) : List Char := '\x1b' :: '[' :: ink.code.toList ++ ['m']

/-- The sequence that ends every ink. -/
def stop : List Char := ['\x1b', '[', '0', 'm']

/-- The text with the ink started again wherever the text ends it. -/
def restart (ink : Ink) (s : List Char) : List Char :=
  (stop ++ ink.start).intercalate (fragments stop s)

/-- A text in an ink and filled up to a width, or only filled up where there is no colour. -/
def writeColumn (ink : Ink) (colour : Bool) (width : Nat) (s : String) : String :=
  String.ofList <|
    if colour then ink.start ++ padEnd width (ink.restart s.toList) ++ stop
    else padEnd width s.toList

/-- A text in an ink, or as it is where there is no colour. -/
def write (ink : Ink) (colour : Bool) (s : String) : String := ink.writeColumn colour 0 s

@[simp] theorem write_false (ink : Ink) (s : String) : ink.write false s = s := by
  simp [write, writeColumn, padEnd]

end Ink

end SectionLedger.Text
