import SectionLedger.Fault
import SectionLedger.Kind
import SectionLedger.Line.Category

/-!
# Opening lines

Some categories open a section.  The category fixes the kind of the section and its *extent*: how
far the section reaches from its first line.  `Extent.reach` counts the further lines, or says which
construct never closes.
-/

namespace SectionLedger

/-- How far a section reaches from its first line. -/
inductive Extent where
  /-- The first line only. -/
  | single
  /-- As long as the lines have this category. -/
  | run (category : Category)
  /-- Up to the next line of this category. -/
  | upTo (closer : Category) (construct : Construct)
  /-- Up to the first line at whose end brackets have been met and none is left open. -/
  | balanced (opening closing : Char) (construct : Construct)

/-- What a line opens: the kind of section, and how far it reaches. -/
structure Opening where
  kind : Kind
  extent : Extent

/-- What a line of a category opens; a closer on its own opens nothing. -/
def Category.opening? : Category → Option Opening
  | .ifOpen => some ⟨.directive, .upTo .ifClose .conditional⟩
  | .directive => some ⟨.directive, .run .directive⟩
  | .variableDecl => some ⟨.variableDecl, .run .variableDecl⟩
  | .lineComment => some ⟨.comment, .run .lineComment⟩
  | .inlineBlockComment => some ⟨.comment, .single⟩
  | .blockCommentOpen => some ⟨.comment, .upTo .blockCommentClose .blockComment⟩
  | .procedureSignature => some ⟨.procedure, .balanced '{' '}' .procedureBody⟩
  | .asmBraceOpen => some ⟨.assembly, .balanced '{' '}' .asmBlock⟩
  | .asmParenOpen => some ⟨.assembly, .balanced '(' ')' .asmStatement⟩
  | .asmFloorOpen => some ⟨.assembly, .upTo .asmFloorClose .asmFloor⟩
  | .ifClose | .blockCommentClose | .asmFloorClose => none

namespace Line

/-- What a line opens. -/
def opening? (line : String) : Option Opening := (classify line).bind Category.opening?

/-- How many more opening than closing brackets a line has. -/
def excess (opening closing : Char) (line : String) : Int :=
  line.toList.count opening - line.toList.count closing

/-- Whether a line has a bracket of the pair. -/
def hasBracket (opening closing : Char) (line : String) : Bool :=
  line.toList.contains opening || line.toList.contains closing

/-- How many lines stand before the first one at whose end a bracket has been met and none is left
open, given what the lines before have left open. -/
def balance? (opening closing : Char) (depth : Int) (met : Bool) : List String → Option Nat
  | [] => none
  | line :: lines =>
    let depth := depth + excess opening closing line
    let met := met || hasBracket opening closing line
    if met && depth ≤ 0 then some 0
    else (balance? opening closing depth met lines).map (· + 1)

end Line

/-- How many lines follow the first line of a section, or the construct that never closes. -/
def Extent.reach (extent : Extent) (first : String) (rest : List String) : Except Construct Nat :=
  match extent with
  | .single => .ok 0
  | .run category => .ok (rest.takeWhile fun l => Line.classify l = some category).length
  | .upTo closer construct =>
    match rest.findIdx? fun l => Line.classify l = some closer with
    | some n => .ok (n + 1)
    | none => .error construct
  | .balanced opening closing construct =>
    match Line.balance? opening closing 0 false (first :: rest) with
    | some n => .ok n
    | none => .error construct

end SectionLedger
