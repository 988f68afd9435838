import Mathlib
import SectionLedger.Proofs.Text.Run
import SectionLedger.Toml.Lexeme
import SectionLedger.Toml.Printer

/-!
# TOML texts and names read back

A text that was printed is read back from the front of a document, and what follows it is left over.
A text is printed in one of five forms.  Between quotes, whatever its characters are, each stands as
itself or as an escape (`StandsFor`), and the reader takes off one of these at a time.  Between
apostrophes there are no escapes, so a text is put there only if it may stand as it is; three
apostrophes do not end it too early, because it neither holds three in a row nor ends in one.  As
three quotes or apostrophes may be followed by more, what comes behind a text must not begin with
either (`EndsText`).
-/

namespace SectionLedger.Toml

/-! ### Characters between quotes -/

/-- What stands for a character between quotes. -/
inductive StandsFor (c : Char) : List Char → Prop where
  | letter {e : Char} (h : escaped? e = some c) : StandsFor c ['\\', e]
  | number {a b : Char} (h : numbered? ['0', '0', a, b] = some c) :
      StandsFor c ['\\', 'u', '0', '0', a, b]
  | itself (hordinary : isOrdinary c = true) (hquote : c ≠ '"') (hbackslash : c ≠ '\\') :
      StandsFor c [c]

section Character

variable {c e : Char} {form : List Char}

/-- The number of an ASCII character is read back from its hexadecimal digits. -/
lemma hexNumber?_upperHexDigits {n : ℕ} (h : n < 0x80) :
    Text.hexNumber? ['0', '0', upperHexDigit (n / 16), upperHexDigit (n % 16)] = some n := by
  have hall : ∀ n < 0x80, Text.hexNumber?
      ['0', '0', upperHexDigit (n / 16), upperHexDigit (n % 16)] = some n := by decide
  exact hall n h

/-- A control character is read back from its number. -/
lemma numbered?_control (h : c.toNat < 0x20 ∨ c.toNat = 0x7F) :
    numbered? ['0', '0', upperHexDigit (c.toNat / 16), upperHexDigit (c.toNat % 16)] = some c := by
  have hvalid : c.toNat.isValidChar := c.valid
  rw [numbered?, hexNumber?_upperHexDigits (by omega)]
  simp [hvalid]

/-- Every character is written as something that stands for it. -/
lemma standsFor_escapeChar (c : Char) : StandsFor c (escapeChar c) := by
  unfold escapeChar
  split_ifs with h1 h2 h3 h4 h5 h6 h7 h8
  · subst h1; exact .letter rfl
  · subst h2; exact .letter rfl
  · subst h3; exact .letter rfl
  · subst h4; exact .letter rfl
  · subst h5; exact .letter rfl
  · subst h6; exact .letter rfl
  · subst h7; exact .letter rfl
  · exact .number (numbered?_control h8)
  · have hordinary : isOrdinary c = true := by
      simp only [isOrdinary, Bool.or_eq_true, Bool.and_eq_true, decide_eq_true_eq, bne_iff_ne]
      omega
    exact .itself hordinary h1 h2

/-- The letters that may follow a backslash. -/
lemma mem_of_escaped? (h : escaped? e = some c) : e ∈ ['"', '\\', 'b', 't', 'n', 'f', 'r'] := by
  by_contra hmem
  simp only [List.mem_cons, List.not_mem_nil, or_false, not_or] at hmem
  simp [escaped?, hmem] at h

/-- No line ends behind a backslash that a letter follows. -/
lemma endsLine_of_escaped? (h : escaped? e = some c) (s : List Char) :
    endsLine (e :: s) = false := by
  have hmem := mem_of_escaped? h
  simp only [List.mem_cons, List.not_mem_nil, or_false] at hmem
  rcases hmem with rfl | rfl | rfl | rfl | rfl | rfl | rfl <;> rfl

/-- Ordinary characters do not end a line. -/
lemma ne_of_isOrdinary (h : isOrdinary c = true) : c ≠ '\n' ∧ c ≠ '\r' := by
  constructor
  · rintro rfl
    contradiction
  · rintro rfl
    contradiction

/-- No other character ends a line. -/
lemma afterNewline?_cons (hfeed : c ≠ '\n') (hreturn : c ≠ '\r') (s : List Char) :
    afterNewline? (c :: s) = none := by
  unfold afterNewline?
  split
  · next ht => exact absurd (List.cons.inj ht).1 hfeed
  · next ht => exact absurd (List.cons.inj ht).1 hreturn
  · rfl

/-- A character is read off from what stands for it. -/
lemma StandsFor.readQuoted_append (h : StandsFor c form) (s : List Char) :
    readQuoted (form ++ s) = (readQuoted s).map (prepend c) := by
  cases h with
  | letter he =>
    have hmem := mem_of_escaped? he
    simp only [List.mem_cons, List.not_mem_nil, or_false] at hmem
    rw [Option.map_eq_bind]
    rcases hmem with rfl | rfl | rfl | rfl | rfl | rfl | rfl <;> simp [readQuoted, he]
  | number hnumber => simp [readQuoted, Option.map_eq_bind, hnumber]
  | itself hordinary hquote hbackslash =>
    simp [readQuoted, Option.map_eq_bind, hordinary, hbackslash]

/-- An ordinary character between three quotes is read as it is. -/
lemma readLongQuoted_cons (hordinary : isOrdinary c = true) (hquote : c ≠ '"')
    (hbackslash : c ≠ '\\') (s : List Char) :
    readLongQuoted false (c :: s) = (readLongQuoted false s).map (prepend c) := by
  obtain ⟨hfeed, hreturn⟩ := ne_of_isOrdinary hordinary
  rw [readLongQuoted]
  · simp [hordinary]
  · exact hfeed
  · exact fun _ h _ => hreturn h
  · exact fun _ h _ => hquote h
  · exact fun _ _ _ _ _ h _ => hbackslash h
  · exact fun _ _ _ _ _ _ _ _ _ h _ => hbackslash h
  · exact fun _ _ h _ => hbackslash h

/-- Between three quotes, too, a character is read off from what stands for it. -/
lemma StandsFor.readLongQuoted_append (h : StandsFor c form) (s : List Char) :
    readLongQuoted false (form ++ s) = (readLongQuoted false s).map (prepend c) := by
  cases h with
  | letter he =>
    have hmem := mem_of_escaped? he
    have hend := endsLine_of_escaped? he s
    simp only [List.mem_cons, List.not_mem_nil, or_false] at hmem
    rw [Option.map_eq_bind]
    rcases hmem with rfl | rfl | rfl | rfl | rfl | rfl | rfl <;> simp [readLongQuoted, he, hend]
  | number hnumber => simp [readLongQuoted, Option.map_eq_bind, hnumber]
  | itself hordinary hquote hbackslash => exact readLongQuoted_cons hordinary hquote hbackslash s

end Character

/-! ### Runs of characters -/

/-- A text that begins with neither a quote nor an apostrophe, so that none in front of it goes on
with more of them. -/
def EndsText (s : List Char) : Prop := ∀ c ∈ s.head?, c ≠ '"' ∧ c ≠ '\''

section Body

variable {cs s : List Char} {c : Char}

/-- Any other character ends a text. -/
lemma endsText_cons (hquote : c ≠ '"') (hapostrophe : c ≠ '\'') (s : List Char) :
    EndsText (c :: s) := by
  rintro c' ⟨⟩
  exact ⟨hquote, hapostrophe⟩

/-- Nothing more belongs to the end of a text. -/
lemma EndsText.closing_eq (h : EndsText s) {quote : Char} (hquote : quote = '"' ∨ quote = '\'') :
    closing quote s = ([], s) := by
  cases s with
  | nil => rfl
  | cons c s =>
    obtain ⟨hdouble, hsingle⟩ := h c rfl
    have hne : (c == quote) = false := by
      rcases hquote with rfl | rfl
      · exact beq_false_of_ne hdouble
      · exact beq_false_of_ne hsingle
    simp [closing, hne]

/-- A text is read back up to its quote. -/
lemma readQuoted_flatMap (cs s : List Char) :
    readQuoted (cs.flatMap escapeChar ++ '"' :: s) = some (cs, s) := by
  induction cs with
  | nil => simp [readQuoted]
  | cons c cs ih =>
    rw [List.flatMap_cons, List.append_assoc, (standsFor_escapeChar c).readQuoted_append, ih]
    rfl

/-- A text is read back up to its three quotes. -/
lemma readLongQuoted_flatMap (cs : List Char) (h : EndsText s) :
    readLongQuoted false (cs.flatMap escapeLongChar ++ (triple '"' ++ s)) = some (cs, s) := by
  induction cs with
  | nil => simp [readLongQuoted, triple, h.closing_eq]
  | cons c cs ih =>
    rw [List.flatMap_cons, List.append_assoc]
    by_cases hfeed : c = '\n'
    · subst hfeed
      simp [escapeLongChar, readLongQuoted, ih, prepend]
    · rw [escapeLongChar, if_neg hfeed, (standsFor_escapeChar c).readLongQuoted_append, ih]
      rfl

/-- The characters that may stand between apostrophes are the ordinary ones and the line feed. -/
lemma isLiteral_iff : isLiteral c = true ↔ c = '\n' ∨ isOrdinary c = true := by
  simp only [isLiteral, isOrdinary, Bool.or_eq_true, beq_iff_eq]
  tauto

/-- A text is read back up to its apostrophe. -/
lemma readLiteral_append (hordinary : ∀ c ∈ cs, isOrdinary c = true) (hapostrophe : '\'' ∉ cs)
    (s : List Char) : readLiteral (cs ++ '\'' :: s) = some (cs, s) := by
  induction cs with
  | nil => rfl
  | cons c cs ih =>
    obtain ⟨hc, hcs⟩ := List.forall_mem_cons.mp hordinary
    obtain ⟨hne, hnot⟩ := not_or.mp (List.mem_cons.not.mp hapostrophe)
    rw [List.cons_append, readLiteral, if_pos hc, ih hcs hnot]
    · rfl
    · exact Ne.symm hne

/-- Three apostrophes behind a text that neither holds three in a row nor ends in one are the first
three in a row. -/
lemma not_triple_isPrefix (h : breaksLiteral (c :: cs) = false) :
    ¬ triple '\'' <+: c :: (cs ++ (triple '\'' ++ s)) := by
  rintro ⟨t, ht⟩
  rcases cs with _ | ⟨d, _ | ⟨e, cs⟩⟩
  · obtain ⟨rfl, -⟩ := List.cons.inj ht
    contradiction
  · simp only [triple, List.cons_append, List.nil_append, List.cons.injEq] at ht
    obtain ⟨rfl, rfl, -⟩ := ht
    contradiction
  · simp only [triple, List.cons_append, List.nil_append, List.cons.injEq] at ht
    obtain ⟨rfl, rfl, rfl, -⟩ := ht
    contradiction

/-- The end of a text holds three apostrophes in a row, or ends in one, only if the text does. -/
lemma breaksLiteral_tail (h : breaksLiteral (c :: cs) = false) : breaksLiteral cs = false := by
  unfold breaksLiteral at h
  split at h
  · contradiction
  · contradiction
  · contradiction
  · next hcons =>
    obtain ⟨-, rfl⟩ := List.cons.inj hcons
    exact h

/-- An ordinary character between three apostrophes is read as it is. -/
lemma readLongLiteral_cons (hordinary : isOrdinary c = true) (htriple : ¬ triple '\'' <+: c :: s) :
    readLongLiteral (c :: s) = (readLongLiteral s).map (prepend c) := by
  obtain ⟨hfeed, hreturn⟩ := ne_of_isOrdinary hordinary
  rw [readLongLiteral]
  · rw [if_pos hordinary]
  · exact hfeed
  · exact fun _ h _ => hreturn h
  · rintro t rfl rfl
    exact htriple ⟨t, rfl⟩

/-- A text is read back up to its three apostrophes. -/
lemma readLongLiteral_append (hliteral : ∀ c ∈ cs, isLiteral c = true)
    (hbreaks : breaksLiteral cs = false) (h : EndsText s) :
    readLongLiteral (cs ++ (triple '\'' ++ s)) = some (cs, s) := by
  induction cs with
  | nil => simp [readLongLiteral, triple, h.closing_eq]
  | cons c cs ih =>
    obtain ⟨hc, hcs⟩ := List.forall_mem_cons.mp hliteral
    have hread := ih hcs (breaksLiteral_tail hbreaks)
    rw [List.cons_append]
    rcases isLiteral_iff.mp hc with rfl | hordinary
    · rw [readLongLiteral, hread]
      rfl
    · rw [readLongLiteral_cons hordinary (not_triple_isPrefix hbreaks), hread]
      rfl

end Body

/-! ### Texts -/

section Text

variable {cs s : List Char}

/-- A quote that two more do not follow begins a text within one line. -/
lemma readText_quote (h : ¬ ['"', '"'] <+: s) : readText ('"' :: s) = readQuoted s := by
  unfold readText
  split
  · next t ht => exact absurd ⟨t, (List.cons.inj ht).2.symm⟩ h
  · next ht => cases ht
  · next ht => rw [(List.cons.inj ht).2]
  · next ht => cases ht
  · next hno _ => exact absurd rfl (hno s)

/-- An apostrophe that two more do not follow begins a text within one line. -/
lemma readText_apostrophe (h : ¬ ['\'', '\''] <+: s) : readText ('\'' :: s) = readLiteral s := by
  unfold readText
  split
  · next ht => cases ht
  · next t ht => exact absurd ⟨t, (List.cons.inj ht).2.symm⟩ h
  · next ht => cases ht
  · next ht => rw [(List.cons.inj ht).2]
  · next hno => exact absurd rfl (hno s)

/-- An end of line is passed over only where there is one. -/
lemma skipNewline_of_isOrdinary {c : Char} (h : isOrdinary c = true) (s : List Char) :
    skipNewline (c :: s) = c :: s := by
  obtain ⟨hfeed, hreturn⟩ := ne_of_isOrdinary h
  rw [skipNewline, afterNewline?_cons hfeed hreturn, Option.getD_none]

/-- A text between quotes does not begin with two more. -/
lemma not_quotes_isPrefix (cs : List Char) (h : EndsText s) :
    ¬ ['"', '"'] <+: cs.flatMap escapeChar ++ '"' :: s := by
  rintro ⟨t, ht⟩
  cases cs with
  | nil =>
    have hs : '"' :: t = s := (List.cons.inj ht).2
    subst hs
    exact (h '"' rfl).1 rfl
  | cons c cs =>
    have hform := standsFor_escapeChar c
    rw [List.flatMap_cons] at ht
    generalize escapeChar c = form at hform ht
    cases hform with
    | letter _ => exact absurd (List.cons.inj ht).1 (by decide)
    | number _ => exact absurd (List.cons.inj ht).1 (by decide)
    | itself _ hquote _ => exact hquote (List.cons.inj ht).1.symm

/-- A text is put between apostrophes if it may stand there and has characters that would have to be
escaped between quotes. -/
lemma prefersLiteral_iff :
    prefersLiteral cs = true ↔
      ('"' ∈ cs ∨ '\\' ∈ cs) ∧ (∀ c ∈ cs, isLiteral c = true) ∧ breaksLiteral cs = false := by
  simp [prefersLiteral, and_assoc]

/-- Without a line feed, what may stand between apostrophes is ordinary. -/
lemma forall_isOrdinary (hliteral : ∀ c ∈ cs, isLiteral c = true) (hfeed : '\n' ∉ cs) :
    ∀ c ∈ cs, isOrdinary c = true := by
  intro c hc
  rcases isLiteral_iff.mp (hliteral c hc) with rfl | hordinary
  · exact absurd hc hfeed
  · exact hordinary

/-- **A text is read back in whatever form it was printed.** -/
theorem readText_printText (cs : List Char) (h : EndsText s) :
    readText (printText cs ++ s) = some (cs, s) := by
  unfold printText
  simp only [List.contains_iff_mem]
  split_ifs with hprefers hfeed hapostrophe hfeed
  · -- between three apostrophes, beginning on a line of its own
    obtain ⟨-, hliteral, hbreaks⟩ := prefersLiteral_iff.mp hprefers
    rw [List.append_assoc]
    exact readLongLiteral_append hliteral hbreaks h
  · -- between three apostrophes, within one line: it holds an apostrophe, so it is not empty
    obtain ⟨-, hliteral, hbreaks⟩ := prefersLiteral_iff.mp hprefers
    have hread := readLongLiteral_append hliteral hbreaks h
    obtain ⟨c, cs, rfl⟩ := List.exists_cons_of_ne_nil (List.ne_nil_of_mem hapostrophe)
    have hordinary := forall_isOrdinary hliteral hfeed c List.mem_cons_self
    have hskip := skipNewline_of_isOrdinary hordinary (cs ++ (triple '\'' ++ s))
    rw [List.append_assoc, List.append_assoc]
    exact (congrArg readLongLiteral hskip).trans hread
  · -- between two apostrophes
    obtain ⟨hquote, hliteral, -⟩ := prefersLiteral_iff.mp hprefers
    have hordinary := forall_isOrdinary hliteral hfeed
    have hfront : ¬ ['\'', '\''] <+: cs ++ '\'' :: s := by
      rintro ⟨t, ht⟩
      cases cs with
      | nil => simp at hquote
      | cons c cs => exact hapostrophe (List.mem_cons.mpr (.inl (List.cons.inj ht).1))
    rw [List.cons_append, List.cons_append, List.append_assoc, List.singleton_append,
      readText_apostrophe hfront, readLiteral_append hordinary hapostrophe]
  · -- between three quotes
    rw [List.append_assoc]
    exact readLongQuoted_flatMap cs h
  · -- between two quotes
    rw [List.cons_append, List.cons_append, List.append_assoc, List.singleton_append,
      readText_quote (not_quotes_isPrefix cs h), readQuoted_flatMap]

end Text

/-! ### Names -/

/-- A name that is written without quotes. -/
def IsBareName (name : String) : Prop :=
  name.toList ≠ [] ∧ ∀ c ∈ name.toList, isBare c = true

instance (name : String) : Decidable (IsBareName name) :=
  inferInstanceAs (Decidable (_ ∧ _))

section Name

variable {name : String} {s : List Char} {c d : Char}

/-- What may stand in a name is no other character. -/
lemma ne_of_isBare (hc : isBare c = true) (hd : isBare d = false) : c ≠ d := by
  rintro rfl
  rw [hc] at hd
  contradiction

/-- A name begins with a character that may stand in one. -/
lemma IsBareName.exists_cons (h : IsBareName name) :
    ∃ c t, name.toList = c :: t ∧ isBare c = true := by
  obtain ⟨hne, hbare⟩ := h
  obtain ⟨c, t, ht⟩ := List.exists_cons_of_ne_nil hne
  exact ⟨c, t, ht, hbare c (ht ▸ List.mem_cons_self)⟩

/-- A character that is no blank stays. -/
lemma skipSpaces_cons (h : isSpace c = false) (s : List Char) : skipSpaces (c :: s) = c :: s := by
  rw [skipSpaces, List.dropWhile_cons, h, if_neg Bool.false_ne_true]

/-- No blank stands in a name. -/
lemma isSpace_eq_false_of_isBare (h : isBare c = true) : isSpace c = false := by
  have hspace : c ≠ ' ' := ne_of_isBare h rfl
  have htab : c ≠ '\t' := ne_of_isBare h rfl
  simp [isSpace, hspace, htab]

/-- A name is read back up to where it ends. -/
lemma readName_append (h : IsBareName name) (hend : ∀ c ∈ s.head?, isBare c = false) :
    readName (name.toList ++ s) = some (name.toList, s) := by
  obtain ⟨c, t, ht, hc⟩ := h.exists_cons
  unfold readName
  split
  · next heq =>
    rw [ht] at heq
    exact absurd (List.cons.inj heq).1 (ne_of_isBare hc rfl)
  · next heq =>
    rw [ht] at heq
    exact absurd (List.cons.inj heq).1 (ne_of_isBare hc rfl)
  · rw [Text.takeWhile_run h.2 hend, Text.dropWhile_run h.2 hend]
    simp [h.1]

/-- A name is read back as a key of its own, if no dot follows it. -/
lemma readKey_append (limit : ℕ) (h : IsBareName name) (hend : ∀ c ∈ s.head?, isBare c = false)
    (hdot : ∀ c ∈ (skipSpaces s).head?, c ≠ '.') :
    readKey (limit + 1) (name.toList ++ s) = some ([name], skipSpaces s) := by
  obtain ⟨c, t, ht, hc⟩ := h.exists_cons
  have hskip : skipSpaces (name.toList ++ s) = name.toList ++ s := by
    rw [ht, List.cons_append, skipSpaces_cons (isSpace_eq_false_of_isBare hc)]
  rw [readKey, hskip, readName_append h hend]
  simp only [Option.bind_eq_bind, Option.bind_some]
  split
  · next t' ht' => exact absurd rfl (hdot '.' (ht' ▸ rfl))
  · rw [String.ofList_toList]

end Name

end SectionLedger.Toml
