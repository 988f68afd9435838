import SectionLedger.Compiler.Diagnostic
import SectionLedger.Text.Pattern

/-!
# Assembly listings

A listing alternates between bodies and header blocks, which dashed comment lines open and close; it
begins in a body.  In a body, a comment that names the source file refers to a line of it.
-/

namespace SectionLedger

open Text

/-- What a dashed line belongs to. -/
inductive Zone where
  | header
  | body
  deriving DecidableEq, Repr

/-- Where a dashed line stands. -/
inductive Edge where
  | before
  | after
  deriving DecidableEq, Repr

/-- A dashed line: what it belongs to, and at which end. -/
structure Marker where
  zone : Zone
  edge : Edge
  deriving DecidableEq, Repr

/-- A line of a listing, with its mark and the source line it refers to. -/
structure ListingLine where
  code : String
  marker : Option Marker
  line : Nat
  deriving DecidableEq, Repr

namespace ListingLine

/-- What a dashed line begins with. -/
def dashes : String := ";-----------------"

/-- The comment sign, the name of the source file and a colon, with blanks after either. -/
def reference (name : String) : Pattern :=
  .inOrder [.word ";", .many isBlank, .literal (delimiter name), .many isBlank]

/-- The source line that a comment refers to: the number after the longest way to read the
reference that leaves a digit. -/
def lineOf (name : String) (code : List Char) : Nat :=
  match ((reference name).rests code).find? fun rest => (rest.head?.any isDecimalDigit) with
  | some rest => ErrorLine.numberAtFront rest
  | none => 0

/-- The lines of a listing, given whether the first one stands in a body. -/
def mark (name : String) : (inBody : Bool) → List (List Char) → List ListingLine
  | _, [] => []
  | inBody, code :: rest =>
    if dashes.toList.isPrefixOf code then
      ⟨String.ofList code, some (if inBody then ⟨.header, .before⟩ else ⟨.body, .after⟩), 0⟩
        :: mark name (!inBody) rest
    else
      ⟨String.ofList code, none, if inBody then lineOf name code else 0⟩ :: mark name inBody rest

/-- The lines of a listing of the file with this name. -/
def ofListing (name listing : String) : List ListingLine :=
  mark name true (splitLines listing.toList)

end ListingLine

end SectionLedger
