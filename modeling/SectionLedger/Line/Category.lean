import SectionLedger.Text.Blank
import SectionLedger.Text.Word
import SectionLedger.Text.Pattern

/-!
# Line categories

A line of C source is classified by its trimmed text alone.  `lineTable` lists the categories with
the pattern that recognises each; the first row whose pattern matches decides (`classify`).
-/

namespace SectionLedger

open Text

/-- What a line of source begins, continues or ends. -/
inductive Category where
  | ifOpen
  | ifClose
  | directive
  | lineComment
  | inlineBlockComment
  | blockCommentOpen
  | blockCommentClose
  | procedureSignature
  | variableDecl
  | asmBraceOpen
  | asmParenOpen
  | asmFloorOpen
  | asmFloorClose
  deriving DecidableEq, Repr

namespace Category

/-- The name of a category, as it is shown. -/
def label : Category → String
  | ifOpen => "if-open"
  | ifClose => "if-close"
  | directive => "directive"
  | lineComment => "line-comment"
  | inlineBlockComment => "inline-block-comment"
  | blockCommentOpen => "block-comment-open"
  | blockCommentClose => "block-comment-close"
  | procedureSignature => "procedure-signature"
  | variableDecl => "variable-decl"
  | asmBraceOpen => "asm-brace-open"
  | asmParenOpen => "asm-paren-open"
  | asmFloorOpen => "asm-floor-open"
  | asmFloorClose => "asm-floor-close"

end Category

/-- The types that may open a declaration or a procedure signature. -/
def primitiveTypes : List String :=
  ["char", "unsigned char", "signed char", "int", "unsigned int", "short", "unsigned short",
   "long", "unsigned long", "unsigned long long", "float", "double", "long double",
   "uint8_t", "uint16_t", "uint32_t", "uint64_t", "void"]

namespace Line

open Pattern

/-- Any character but a line feed. -/
def notLineFeed (c : Char) : Bool := c != '\n'

/-- A word that begins a conditional block. -/
def ifPattern : Pattern :=
  .seq (word "#")
    (oneOf [word "if", word "ifdef", word "if defined", word "ifndef", word "if !defined"])

/-- A preprocessor line that stands on its own. -/
def directivePattern : Pattern :=
  .seq (word "#")
    (oneOf [word "define", word "include", word "pragma", word "error", word "warning",
      word "undef", word "line"])

/-- A primitive type, white space and a name. -/
def typedName : Pattern :=
  inOrder [oneOf (primitiveTypes.map word), .oneOrMore isBlank, .oneOrMore isWord]

/-- The keyword of an inline assembly block, with or without a volatile mark, and an opening
bracket. -/
def asmPattern (bracket : Char) : Pattern :=
  inOrder [oneOf [word "asm", word "__asm__"], .many isBlank,
    .optional (inOrder [oneOf [word "volatile", word "__volatile__"], .many isBlank]),
    .literal [bracket]]

/-- The categories in the order in which they are tried, each with its pattern. -/
def lineTable : List (Category × Pattern) :=
  [(.ifOpen, ifPattern),
   (.ifClose, word "#endif"),
   (.directive, directivePattern),
   (.lineComment, word "//"),
   (.inlineBlockComment, inOrder [word "/*", .many notLineFeed, word "*/", .finish]),
   (.blockCommentOpen, word "/*"),
   (.blockCommentClose, inOrder [.many fun _ => true, word "*/", .finish]),
   (.procedureSignature, inOrder [typedName, .many isBlank, word "("]),
   (.variableDecl, inOrder [typedName, .many isBlank, .either (word "=") (.one (· != '('))]),
   (.asmBraceOpen, asmPattern '{'),
   (.asmParenOpen, asmPattern '('),
   (.asmFloorOpen, word "__asm"),
   (.asmFloorClose, inOrder [word "__endasm", .many isBlank, word ";"])]

/-- The category of a trimmed text: that of the first row whose pattern matches. -/
def categoryOf (text : List Char) : Option Category :=
  (lineTable.find? fun row => row.2.matchesFront text).map (·.1)

/-- The category of a line, if it has one. -/
def classify (line : String) : Option Category := categoryOf (trim line.toList)

/-- Only the trimmed text of a line counts. -/
theorem classify_congr {a b : String} (h : trim a.toList = trim b.toList) :
    classify a = classify b := by
  simp [classify, h]

end Line

end SectionLedger
