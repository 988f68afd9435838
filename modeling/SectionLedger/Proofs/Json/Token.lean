import Mathlib
import SectionLedger.Json.Printer
import SectionLedger.Json.Reader
import SectionLedger.Proofs.Text.Run

/-!
# Tokens read back

A number, a string or a key that was printed is read back from the front of any text, and what
follows it is left over.  A string ends at its closing quote, since every quote inside is escaped; a
number ends where the text goes on with neither a digit nor a point nor an exponent
(`EndsNumber`).  A key that is a name is read back as one unless it begins with a digit
(`Key.Plain`), for then it could be a number.
-/

namespace SectionLedger.Json

/-! ### Strings -/

/-- The number of a control character is read back from its two hexadecimal digits. -/
lemma hexNumber?_hexDigits {n : ℕ} (h : n < 0x20) :
    Text.hexNumber? ['0', '0', Text.hexDigit (n / 16), Text.hexDigit (n % 16)] = some n := by
  interval_cases n <;> decide

/-- A character is written as it is or by an escape. -/
lemma escapeChar_eq_cons (c : Char) : (∃ t, escapeChar c = '\\' :: t) ∨ escapeChar c = [c] := by
  unfold escapeChar
  split_ifs <;> simp

/-- A character that is neither a quote nor a backslash nor a control character stands for
itself. -/
lemma readUnits_cons {c : Char} (hquote : c ≠ '"') (hbackslash : c ≠ '\\')
    (hcontrol : ¬ c.toNat < 0x20) (s : List Char) :
    readUnits (c :: s) = (readUnits s).map fun parts => (.char c :: parts.1, parts.2) := by
  rw [Option.map_eq_bind]
  simp [readUnits, hbackslash, hcontrol]

/-- A control character is read back from its escape. -/
lemma readUnits_control {c : Char} (h : c.toNat < 0x20) (s : List Char) :
    readUnits ('\\' :: 'u' :: '0' :: '0' :: Text.hexDigit (c.toNat / 16) ::
      Text.hexDigit (c.toNat % 16) :: s) =
        (readUnits s).map fun parts => (.char c :: parts.1, parts.2) := by
  have hhalf : ¬ (0xD800 ≤ c.toNat ∧ c.toNat < 0xE000) := by omega
  rw [readUnits, hexNumber?_hexDigits h, Option.map_eq_bind]
  simp [hhalf]

/-- An escaped character is read back as that character. -/
lemma readUnits_escapeChar (c : Char) (s : List Char) :
    readUnits (escapeChar c ++ s) =
      (readUnits s).map fun parts => (.char c :: parts.1, parts.2) := by
  unfold escapeChar
  split_ifs with h1 h2 h3 h4 h5 h6 h7 h8
  · subst h1; simp [readUnits, Option.map_eq_bind]
  · subst h2; simp [readUnits, Option.map_eq_bind]
  · subst h3; simp [readUnits, Option.map_eq_bind]
  · subst h4; simp [readUnits, Option.map_eq_bind]
  · subst h5; simp [readUnits, Option.map_eq_bind]
  · subst h6; simp [readUnits, Option.map_eq_bind]
  · subst h7; simp [readUnits, Option.map_eq_bind]
  · exact readUnits_control h8 s
  · exact readUnits_cons h1 h2 h8 s

/-- The escaped characters of a text are read back up to the closing quote. -/
lemma readUnits_flatMap (cs s : List Char) :
    readUnits (cs.flatMap escapeChar ++ '"' :: s) = some (cs.map .char, s) := by
  induction cs with
  | nil => simp [readUnits]
  | cons c cs ih =>
    rw [List.flatMap_cons, List.append_assoc, readUnits_escapeChar, ih]
    rfl

/-- The characters of a string are its text. -/
lemma textOf?_map_char (cs : List Char) : textOf? (cs.map .char) = some cs := by
  induction cs with
  | nil => rfl
  | cons c cs ih => rw [List.map_cons, textOf?, ih, Option.map_some]

/-! ### Numbers -/

/-- A text that does not go on with a number: it begins with no digit, point or exponent. -/
def EndsNumber (s : List Char) : Prop :=
  ∀ c t, s = c :: t → c.isDigit = false ∧ c ≠ '.' ∧ c ≠ 'e' ∧ c ≠ 'E'

/-- The digits of a number are digits. -/
lemma isDigit_of_mem_printNat {n : ℕ} {c : Char} (h : c ∈ printNat n) : c.isDigit = true :=
  Nat.isDigit_of_mem_toDigits (by decide) (by decide) h

/-- A digit is no other character. -/
lemma ne_of_isDigit {c d : Char} (hc : c.isDigit = true) (hd : d.isDigit = false) : c ≠ d := by
  rintro rfl
  rw [hc] at hd
  contradiction

/-- A number has digits. -/
lemma printNat_ne_nil (n : ℕ) : printNat n ≠ [] := Nat.toDigits_ne_nil

/-- The digits of a number denote it. -/
lemma digitsValue_printNat (n : ℕ) : Text.digitsValue (printNat n) = n := by
  rw [Text.digitsValue, ← Nat.ofDigitChars_eq_foldl]
  exact Nat.ofDigitChars_ten_toDigits

/-- Only zero begins with a zero. -/
lemma head_printNat_ne_zero {n : ℕ} (h : n ≠ 0) (s : List Char) : printNat n ≠ '0' :: s := by
  induction n using Nat.strong_induction_on generalizing s with
  | _ n ih =>
    rw [printNat, Nat.toDigits_eq_if (by decide)]
    split
    · next hlt => interval_cases n <;> simp_all [Nat.digitChar]
    · next hge =>
      intro hs
      obtain ⟨c, cs, hdigits⟩ := List.exists_cons_of_ne_nil (printNat_ne_nil (n / 10))
      have hhead := ih (n / 10) (by omega) (by omega) cs
      rw [printNat] at hdigits hhead
      rw [hdigits, List.cons_append, List.cons.injEq] at hs
      exact hhead (hs.1 ▸ hdigits)

/-- The digits of a number are taken off the front of a text that goes on with no digit. -/
lemma readDigits_printNat (n : ℕ) {s : List Char} (h : ∀ c t, s = c :: t → c.isDigit = false) :
    readDigits (printNat n ++ s) = some (printNat n, s) := by
  have hall : ∀ c ∈ printNat n, c.isDigit = true := fun c hc => isDigit_of_mem_printNat hc
  have hstop : ∀ c ∈ s.head?, c.isDigit = false := by
    intro c hc
    obtain ⟨t, ht⟩ := List.head?_eq_some_iff.mp hc
    exact h c t ht
  rw [readDigits, Text.takeWhile_run hall hstop, Text.dropWhile_run hall hstop]
  simp [printNat_ne_nil]

/-- A number is read back digit by digit. -/
lemma readWhole_printNat (n : ℕ) {s : List Char} (h : ∀ c t, s = c :: t → c.isDigit = false) :
    readWhole (printNat n ++ s) = some (printNat n, s) := by
  by_cases hn : n = 0
  · subst hn
    rfl
  · obtain ⟨c, cs, hdigits⟩ := List.exists_cons_of_ne_nil (printNat_ne_nil n)
    have hzero : c ≠ '0' := fun hc => head_printNat_ne_zero hn cs (hc ▸ hdigits)
    have hread := readDigits_printNat n h
    rw [hdigits, List.cons_append] at hread ⊢
    rw [readWhole]
    · exact hread
    · intro t ht
      exact hzero (List.cons.inj ht).1

/-- A text that does not begin with a digit begins with no whole number. -/
lemma readWhole_eq_none {s : List Char} (h : ∀ c t, s = c :: t → c.isDigit = false) :
    readWhole s = none := by
  cases s with
  | nil => rfl
  | cons c t =>
    have hc := h c t rfl
    rw [readWhole, readDigits, List.takeWhile_cons_of_neg (by simp [hc])]
    · rfl
    · rintro r ⟨⟩
      exact absurd hc (by decide)

namespace EndsNumber

variable {s : List Char}

/-- Where a number ends there is no digit. -/
lemma isDigit_eq_false (h : EndsNumber s) (c : Char) (t : List Char) (hs : s = c :: t) :
    c.isDigit = false := (h c t hs).1

/-- Where a number ends there is no fraction. -/
lemma skipFraction (h : EndsNumber s) : skipFraction s = some (false, s) := by
  cases s with
  | nil => rfl
  | cons c t =>
    obtain ⟨-, hpoint, -, -⟩ := h c t rfl
    rw [Json.skipFraction]
    rintro r ⟨⟩
    exact hpoint rfl

/-- Where a number ends there is no exponent. -/
lemma skipExponent (h : EndsNumber s) : skipExponent s = some (false, s) := by
  cases s with
  | nil => rfl
  | cons c t =>
    obtain ⟨-, -, he, hE⟩ := h c t rfl
    simp [Json.skipExponent, he, hE]

end EndsNumber

/-- A natural number is read back. -/
lemma readNumber_natural (n : ℕ) {s : List Char} (h : EndsNumber s) :
    readNumber (printNat n ++ s) = some (.nat n, s) := by
  obtain ⟨c, cs, hdigits⟩ := List.exists_cons_of_ne_nil (printNat_ne_nil n)
  have hc : c ≠ '-' :=
    ne_of_isDigit (isDigit_of_mem_printNat (n := n) (hdigits ▸ List.mem_cons_self)) rfl
  have hread := readWhole_printNat n h.isDigit_eq_false
  have hvalue := digitsValue_printNat n
  rw [hdigits, List.cons_append] at hread ⊢
  rw [hdigits] at hvalue
  simp [readNumber, hc, hread, h.skipFraction, h.skipExponent, hvalue]

/-- A number below zero is read back. -/
lemma readNumber_negative {n : ℕ} (hn : n ≠ 0) {s : List Char} (h : EndsNumber s) :
    readNumber ('-' :: printNat n ++ s) = some (.negative n, s) := by
  have hread := readWhole_printNat n h.isDigit_eq_false
  simp [readNumber, hread, h.skipFraction, h.skipExponent, digitsValue_printNat, hn]

/-! ### Keys -/

/-- A name that does not begin with a digit, or a number. -/
def Key.Plain : Key → Prop
  | .name s => ∀ c t, s.toList = c :: t → c.isDigit = false
  | .number _ => True

/-- A key that is plain is read back, after its opening quote. -/
lemma readKey_printKey {k : Key} (h : k.Plain) (s : List Char) :
    ∃ t, printKey k ++ s = '"' :: t ∧ readKey t = some (some k, s) := by
  cases k with
  | name name =>
    refine ⟨name.toList.flatMap escapeChar ++ '"' :: s, by simp [printKey, printText], ?_⟩
    have hdigit : ∀ c t, name.toList.flatMap escapeChar ++ '"' :: s = c :: t →
        c.isDigit = false := by
      intro c t hc
      cases hname : name.toList with
      | nil =>
        rw [hname] at hc
        obtain rfl : '"' = c := (List.cons.inj hc).1
        decide
      | cons d ds =>
        rw [hname, List.flatMap_cons] at hc
        rcases escapeChar_eq_cons d with ⟨r, hr⟩ | hr
        · rw [hr] at hc
          obtain rfl : '\\' = c := (List.cons.inj hc).1
          decide
        · rw [hr] at hc
          obtain rfl : d = c := (List.cons.inj hc).1
          exact h d ds hname
    rw [readKey, readWhole_eq_none hdigit]
    simp [readUnits_flatMap, textOf?_map_char]
  | number n =>
    refine ⟨printNat n ++ '"' :: s, by simp [printKey], ?_⟩
    have hquote : ∀ c t, '"' :: s = c :: t → c.isDigit = false := by
      rintro c t ⟨⟩
      decide
    rw [readKey, readWhole_printNat n hquote]
    simp [digitsValue_printNat]

end SectionLedger.Json
