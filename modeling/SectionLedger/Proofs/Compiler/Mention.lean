import Mathlib
import SectionLedger.Proofs.Compiler.Session
import SectionLedger.Proofs.Text.Fragments
import SectionLedger.Proofs.Text.Run

/-!
# Messages and the file that they mention

A message is attributed to a line if it follows a place where the output is cut, and begins with the
number of the line (`Diagnostic.exists_attributed_iff`).  The output is cut wherever the name and a
colon stand, also where they end a longer name.  So a message mentions the file itself only if the
name stands alone there (`MentionsLine`), which is so for all messages if it is so wherever the
name, a colon and a digit come together.
-/

namespace SectionLedger

open Text

/-! ### Mentions -/

/-- A name stands alone behind a text: the text is empty or does not end in a character of a
word. -/
def StandsAlone (before : List Char) : Prop := ∀ c ∈ before.getLast?, isWord c = false

/-- An output mentions a line of a file: the name of the file stands alone somewhere, followed by a
colon and the digits of the line. -/
def MentionsLine (name output : String) (n : ℕ) : Prop :=
  ∃ before digits behind, output.toList = before ++ delimiter name ++ (digits ++ behind) ∧
    StandsAlone before ∧ digits ≠ [] ∧ (∀ c ∈ digits, c.isDigit = true) ∧ digitsValue digits = n

/-- A delimiter has its colon. -/
lemma delimiter_ne_nil (name : String) : delimiter name ≠ [] := by simp [delimiter]

namespace Diagnostic

/-- **Attributed messages begin at cuts.**  Some message is attributed to a line exactly if the
output is cut somewhere and the text up to the next cut begins with the number of the line. -/
theorem exists_attributed_iff (name output : String) (n : ℕ) :
    (∃ d ∈ ofOutput name output, d.isAttributed = true ∧ d.line = n) ↔
      0 < n ∧ ∃ before behind, IsCut (delimiter name) output.toList before behind ∧
        leadingNumber (front (delimiter name) behind) = n := by
  have hd := delimiter_ne_nil name
  have hlead : ∀ lead, ∀ d ∈ ofLead lead, d.isAttributed = false := by
    intro lead d hmem
    unfold ofLead at hmem
    split at hmem
    · exact absurd hmem List.not_mem_nil
    · rw [List.mem_singleton.mp hmem]
      rfl
  have hmem : ∀ d, d ∈ ofOutput name output ↔
      d ∈ ofLead (front (delimiter name) output.toList) ∨
        ∃ before behind, IsCut (delimiter name) output.toList before behind ∧
          ofFragment (front (delimiter name) behind) = d := by
    intro d
    rw [ofOutput, fragments_eq_front_cons hd output.toList]
    simp only [List.mem_append, List.mem_map, mem_tail_fragments_iff hd]
    constructor
    · rintro (h | ⟨_, ⟨before, behind, hcut, rfl⟩, rfl⟩)
      · exact .inl h
      · exact .inr ⟨before, behind, hcut, rfl⟩
    · rintro (h | ⟨before, behind, hcut, rfl⟩)
      · exact .inl h
      · exact .inr ⟨_, ⟨before, behind, hcut, rfl⟩, rfl⟩
  have hline : ∀ fragment, (ofFragment fragment).line = leadingNumber fragment :=
    leadingNumber_trimEnd
  constructor
  · rintro ⟨d, hd, hattributed, rfl⟩
    have hpositive : 0 < d.line := by simpa [isAttributed] using hattributed
    rcases (hmem d).mp hd with h | ⟨before, behind, hcut, rfl⟩
    · rw [hlead _ d h] at hattributed
      contradiction
    · exact ⟨hpositive, before, behind, hcut, (hline _).symm⟩
  · rintro ⟨hpositive, before, behind, hcut, hnumber⟩
    refine ⟨ofFragment (front (delimiter name) behind), ?_, ?_, ?_⟩
    · exact (hmem _).mpr (.inr ⟨before, behind, hcut, rfl⟩)
    · rw [isAttributed, hline, hnumber]
      exact decide_eq_true hpositive
    · rw [hline, hnumber]

/-- A line that some message is attributed to is mentioned if the name stands alone wherever a digit
follows it and its colon. -/
lemma mentionsLine_of_attributed {name output : String}
    (halone : ∀ before c behind,
      output.toList = before ++ delimiter name ++ c :: behind → c.isDigit = true →
        StandsAlone before)
    {d : Diagnostic} (hd : d ∈ ofOutput name output) (hattributed : d.isAttributed = true) :
    0 < d.line ∧ MentionsLine name output d.line := by
  obtain ⟨hpositive, before, behind, hcut, hnumber⟩ :=
    (exists_attributed_iff name output d.line).mp ⟨d, hd, hattributed, rfl⟩
  rw [← hnumber] at hpositive
  obtain ⟨digits, rest, hfront, hne, hdigits, hvalue⟩ :=
    exists_digits_of_leadingNumber_pos hpositive
  obtain ⟨further, hbehind⟩ := front_prefix (delimiter name) behind
  have hoccurs : output.toList = before ++ delimiter name ++ (digits ++ (rest ++ further)) := by
    rw [hcut.eq_append, ← List.append_assoc digits, ← hfront, hbehind]
  have hstands : StandsAlone before := by
    obtain ⟨c, digits', rfl⟩ := List.exists_cons_of_ne_nil hne
    exact halone before c _ hoccurs (hdigits c List.mem_cons_self)
  refine ⟨hnumber ▸ hpositive, before, digits, rest ++ further, hoccurs, hstands, hne, hdigits, ?_⟩
  rw [hvalue, hnumber]

/-- **Attributed messages mention the file**, if its name stands alone wherever a digit follows it
and its colon.  Then every attributed message is about a line that the output mentions, a file only
compiles with warnings if the output mentions a line of it, and a section only gets messages if the
output mentions one of its lines. -/
theorem attributed_of_mentions {name output : String}
    (halone : ∀ before c behind,
      output.toList = before ++ delimiter name ++ c :: behind → c.isDigit = true →
        StandsAlone before) :
    (∀ d ∈ ofOutput name output, d.isAttributed = true → MentionsLine name output d.line) ∧
    (Status.ofOutcome true (ofOutput name output) = .compiledWithWarnings →
      ∃ n, 0 < n ∧ MentionsLine name output n) ∧
    ∀ (l : Ledger) (file : FileId) (status : Status),
      ∀ s ∈ (l.apply file status (ofOutput name output)).1.shelf file, s.statusData ≠ "" →
        ∃ n, s.containsLine n = true ∧ MentionsLine name output n := by
  refine ⟨?_, ?_, ?_⟩
  · intro d hd hattributed
    exact (mentionsLine_of_attributed halone hd hattributed).2
  · intro hstatus
    obtain ⟨d, hd, hattributed⟩ :=
      Status.ofOutcome_true_eq_compiledWithWarnings_iff.mp hstatus
    exact ⟨d.line, mentionsLine_of_attributed halone hd hattributed⟩
  · intro l file status s hs hdata
    rw [Ledger.apply, Ledger.shelf_withShelf_self, Shelf.apply_fst] at hs
    obtain ⟨s₀, -, rfl⟩ := List.mem_map.mp hs
    have hmessages : s₀.messages (ofOutput name output) ≠ [] := by
      intro hnone
      rw [Section.judged, if_pos hnone] at hdata
      exact hdata rfl
    obtain ⟨d, hd, hattributed, hcontains⟩ := Section.messages_ne_nil_iff.mp hmessages
    refine ⟨d.line, ?_, (mentionsLine_of_attributed halone hd hattributed).2⟩
    rwa [Section.judged_toSpan]

/-- What holds of every place of a text where the delimiter begins holds of every text that stands
before it. -/
lemma forall_before_of_forall_place {P : List Char → Prop} {delimiter s : List Char}
    (h : ∀ k ≤ s.length, delimiter <+: s.drop k → P (s.take k)) {before behind : List Char}
    (hs : s = before ++ delimiter ++ behind) : P before := by
  subst hs
  have hplace := h before.length (by simp) (by simp)
  rwa [List.append_assoc, List.take_left] at hplace

set_option maxRecDepth 2000 in
/-- A line feed is no character of a word. -/
lemma isWord_lineFeed : isWord '\n' = false := by decide +kernel

set_option maxRecDepth 2000 in
/-- A slash is no character of a word. -/
lemma isWord_slash : isWord '/' = false := by decide +kernel

/-- Behind a message about another file and a path, both messages about the file are attributed to
lines that the output mentions. -/
theorem attributed_of_mentions_behind_path :
    let output := "main.c:1: note\nsource.c:12: error 20\n./source.c:7: warning\n"
    (∀ before c behind, output.toList = before ++ delimiter "source.c" ++ c :: behind →
      c.isDigit = true → StandsAlone before) ∧
    ofOutput "source.c" output =
      [⟨0, "main.c:1: note"⟩, ⟨12, "12: error 20\n./"⟩, ⟨7, "7: warning"⟩] ∧
    MentionsLine "source.c" output 12 ∧ MentionsLine "source.c" output 7 := by
  intro output
  have halone : ∀ before c behind,
      output.toList = before ++ delimiter "source.c" ++ c :: behind → c.isDigit = true →
        StandsAlone before := by
    intro before c behind hoccurs _
    have hlast : before.getLast? = some '\n' ∨ before.getLast? = some '/' := by
      refine forall_before_of_forall_place
        (P := fun t => t.getLast? = some '\n' ∨ t.getLast? = some '/') ?_ hoccurs
      decide +kernel
    rintro c hc
    rcases hlast with h | h <;> rw [h, Option.mem_some_iff] at hc <;> subst hc
    · exact isWord_lineFeed
    · exact isWord_slash
  have hmessages : ofOutput "source.c" output =
      [⟨0, "main.c:1: note"⟩, ⟨12, "12: error 20\n./"⟩, ⟨7, "7: warning"⟩] := by
    decide +kernel
  have hmentions := (attributed_of_mentions halone).1
  rw [hmessages] at hmentions
  refine ⟨halone, hmessages, ?_, ?_⟩
  · exact hmentions ⟨12, "12: error 20\n./"⟩ (by decide) rfl
  · exact hmentions ⟨7, "7: warning"⟩ (by decide) rfl

/-- A message about a file with a longer name is attributed to a line that the output does not
mention.  It makes the file one that compiles with warnings, and it is attached to a section of
the file. -/
theorem attributed_without_mention :
    let output := "resource.c:3: warning 85"
    let s : Section := .fresh 1 ⟨⟨1, 5⟩, Kind.comment⟩ "" "" ""
    let ds := ofOutput "source.c" output
    ds = [⟨0, "re"⟩, ⟨3, "3: warning 85"⟩] ∧ ¬ MentionsLine "source.c" output 3 ∧
      Status.ofOutcome true ds = .compiledWithWarnings ∧
      ((Ledger.empty.withShelf 1 [s]).apply 1 (Status.ofOutcome true ds) ds).1.shelf 1 =
        [{ s with status := some .compiledWithWarnings, statusData := "3: warning 85," }] := by
  intro output s ds
  have hmessages : ds = [⟨0, "re"⟩, ⟨3, "3: warning 85"⟩] := by decide +kernel
  have hstatus : Status.ofOutcome true ds = .compiledWithWarnings := by
    rw [hmessages]
    decide
  refine ⟨hmessages, ?_, hstatus, ?_⟩
  · rintro ⟨before, digits, behind, hoccurs, halone, -⟩
    have hlast : before.getLast? = some 'e' := by
      refine forall_before_of_forall_place (P := fun t => t.getLast? = some 'e') ?_ hoccurs
      decide +kernel
    rw [StandsAlone, hlast] at halone
    have hword : isWord 'e' = true := by decide +kernel
    exact Bool.false_ne_true ((halone 'e' rfl).symm.trans hword)
  · have hjudged : s.judged .compiledWithWarnings ds =
        { s with status := some .compiledWithWarnings, statusData := "3: warning 85," } := by
      rw [hmessages]
      decide +kernel
    rw [hstatus, Ledger.apply, Ledger.shelf_withShelf_self, Ledger.shelf_withShelf_self,
      Shelf.apply_fst, List.map_singleton, hjudged]

end Diagnostic

end SectionLedger
