import SectionLedger.Text.Split

/-!
# Paths

A path is written as names with slashes between them.  A file is found by the list of the names
that lead to it from the root; how a path is written does not matter there, except that a slash at
the end asks for a directory.
-/

namespace SectionLedger

/-- The names that lead to a file, from the root or from a directory above it. -/
abbrev Place := List String

namespace Path

/-- The most bytes that a name can have. -/
def nameLimit : Nat := 255

/-- The most bytes that a path can have. -/
def limit : Nat := 4095

/-- The names of a path, in order, with `.` and `..` among them. -/
def names (path : String) : List String :=
  ((Text.fragments ['/'] path.toList).filter fun name => !name.isEmpty).map String.ofList

/-- Whether a path ends in a slash. -/
def endsInSlash (path : String) : Bool := path.toList.getLast? == some '/'

/-- Whether a path begins at the root of all directories. -/
def isAbsolute (path : String) : Bool := path.toList.head? == some '/'

/-- The path of a file that is named within a directory. -/
def join (directory name : String) : String :=
  if isAbsolute name then name
  else if directory = "" ∨ endsInSlash directory then directory ++ name
  else directory ++ "/" ++ name

/-- The path of the file at a place below a directory. -/
def joinPlace (directory : String) (place : Place) : String := place.foldl join directory

/-- The path of the file at a place, from the root. -/
def ofPlace (place : Place) : String := joinPlace "/" place

/-- The name of the file that a path leads to, if the path ends in one. -/
def fileName? (path : String) : Option String :=
  match ((names path).filter fun name => name != ".").getLast? with
  | some name => if name = ".." then none else some name
  | none => none

/-- What follows the last dot of a name, unless the name begins with that dot. -/
def extension? (name : String) : Option String :=
  let reversed := name.toList.reverse
  match reversed.dropWhile (· ≠ '.') with
  | _ :: _ :: _ => some (String.ofList (reversed.takeWhile (· ≠ '.')).reverse)
  | _ => none

/-- Whether a path leads to a file that is named as C source is. -/
def isSource (path : String) : Bool :=
  match fileName? path >>= extension? with
  | some e => e == "c" || e == "h"
  | none => false

end Path

end SectionLedger
