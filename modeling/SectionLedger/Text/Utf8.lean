/-!
# Bytes and texts

Files and the output of programs are bytes.  A file is read strictly: its bytes are the UTF-8 form
of a text, or there is no text.  The output of a program is read leniently: every longest run of
bytes that begins a character and does not complete it is replaced, and so is every byte that begins
none.
-/

namespace SectionLedger.Text

/-- The text whose UTF-8 form these bytes are. -/
def readUtf8? (bytes : ByteArray) : Option String := String.fromUTF8? bytes

/-- The character that stands for bytes without a character. -/
def replacementChar : Char := '\ufffd'

/-- A character of which some bytes have been read: the bits so far, and the range of each byte that
is still due. -/
structure Pending where
  bits : Nat
  due : List (Nat × Nat)
  deriving DecidableEq, Repr

namespace Pending

/-- Between characters. -/
def none : Pending := ⟨0, []⟩

/-- What follows a byte that begins a character of several bytes.  The second byte is restricted, so
that no character has two forms, no half of a surrogate pair is one, and none is too large. -/
def ofLead? (b : Nat) : Option Pending :=
  let tail := (0x80, 0xBF)
  if 0xC2 ≤ b ∧ b ≤ 0xDF then some ⟨b - 0xC0, [tail]⟩
  else if b = 0xE0 then some ⟨0, [(0xA0, 0xBF), tail]⟩
  else if b = 0xED then some ⟨0xD, [(0x80, 0x9F), tail]⟩
  else if 0xE1 ≤ b ∧ b ≤ 0xEF then some ⟨b - 0xE0, [tail, tail]⟩
  else if b = 0xF0 then some ⟨0, [(0x90, 0xBF), tail, tail]⟩
  else if b = 0xF4 then some ⟨4, [(0x80, 0x8F), tail, tail]⟩
  else if 0xF1 ≤ b ∧ b ≤ 0xF3 then some ⟨b - 0xF0, [tail, tail, tail]⟩
  else .none

/-- The characters completed by a byte that is read between characters, and what is pending. -/
def start (b : Nat) : List Char × Pending :=
  if b < 0x80 then ([Char.ofNat b], none)
  else match ofLead? b with
    | some pending => ([], pending)
    | .none => ([replacementChar], none)

/-- The characters completed by one more byte, and what is pending. -/
def next (p : Pending) (b : Nat) : List Char × Pending :=
  match p.due with
  | [] => start b
  | (low, high) :: due =>
    if low ≤ b ∧ b ≤ high then
      let bits := 64 * p.bits + (b - 0x80)
      if due.isEmpty then ([Char.ofNat bits], none) else ([], ⟨bits, due⟩)
    else (replacementChar :: (start b).1, (start b).2)

end Pending

/-- The characters of bytes, given what is pending before them. -/
def readBytes (p : Pending) : List UInt8 → List Char
  | [] => if p.due.isEmpty then [] else [replacementChar]
  | b :: bytes => (p.next b.toNat).1 ++ readBytes (p.next b.toNat).2 bytes

/-- The text of the bytes, with a replacement where they are not UTF-8. -/
def readLenient (bytes : ByteArray) : String := String.ofList (readBytes .none bytes.toList)

end SectionLedger.Text
