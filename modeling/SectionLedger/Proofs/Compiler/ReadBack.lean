import Mathlib
import SectionLedger.Proofs.Compiler.Mention
import SectionLedger.Proofs.Json.Token
import SectionLedger.Proofs.Text.Occurrence

/-!
# Messages read back from what a compiler writes

A compiler writes a lead, and then for each message the name of the file, a colon, the line and what
it says about the line (`Diagnostic.writeOutput`).  A name holds no colon, so the delimiter ends
where its only colon stands, and across the seams of such an output there is no other occurrence of
it (`not_occursAt_seam`).  The messages of the output are therefore those that were written.

An output need not be of this form.  Whatever it is, it has one message for each place of the
delimiter from left to right, and one more for a lead that is not blank.
-/

namespace SectionLedger

open Text

/-! ### Numbers that are written -/

/-- The digits of a number that fits a word are read back, if no digit follows them. -/
lemma Text.leadingNumber_toDigits_append {n : ℕ} (hn : n < wordLimit) {s : List Char}
    (hs : ∀ c ∈ s.head?, c.isDigit = false) : leadingNumber (Nat.toDigits 10 n ++ s) = n := by
  have hdigits : ∀ c ∈ Nat.toDigits 10 n, c.isDigit = true := fun _ => Json.isDigit_of_mem_printNat
  have hvalue : digitsValue (Nat.toDigits 10 n) = n := Json.digitsValue_printNat n
  have hread : readWord? (Nat.toDigits 10 n) = some n := by
    rw [readWord?, if_pos, hvalue]
    exact ⟨Nat.toDigits_ne_nil, List.all_eq_true.mpr hdigits, hvalue.symm ▸ hn⟩
  rw [leadingNumber_append hs, leadingNumber, List.takeWhile_eq_self_iff.mpr hdigits, hread,
    Option.getD_some]

/-! ### The seams of an output -/

section Seam

variable {name : String} {a s : List Char}

/-- A delimiter ends in its colon. -/
lemma delimiter_infix_concat_iff {c : Char} (hc : c ≠ ':') :
    delimiter name <:+: a ++ [c] ↔ delimiter name <:+: a := by
  rw [List.infix_concat_iff]
  constructor
  · rintro (⟨t, ht⟩ | h)
    · have hlast := congrArg List.getLast? ht
      rw [delimiter, ← List.append_assoc, List.getLast?_concat, List.getLast?_concat] at hlast
      exact absurd (Option.some.inj hlast).symm hc
    · exact h
  · exact .inr

/-- If a name holds no colon, the delimiter begins nowhere in a text without it that stands in front
of the delimiter: its only colon would stand in the text or at the seam, and not in the name. -/
lemma not_occursAt_seam (hname : ':' ∉ name.toList) (ha : ¬ delimiter name <:+: a) {k : ℕ}
    (hk : k < a.length) : ¬ OccursAt (delimiter name) (a ++ (delimiter name ++ s)) k := by
  intro hoccurs
  obtain ⟨front, rest, hfront, rfl⟩ : ∃ front rest, front.length = k ∧ a = front ++ rest :=
    ⟨a.take k, a.drop k, List.length_take_of_le hk.le, (List.take_append_drop k a).symm⟩
  have hrest : 0 < rest.length := by
    rw [List.length_append] at hk
    omega
  rw [← hfront, ← Nat.add_zero front.length, List.append_assoc, occursAt_append_right, OccursAt,
    List.drop_zero] at hoccurs
  obtain ⟨behind, hbehind⟩ := hoccurs
  have htext : name.toList ++ ':' :: behind = rest ++ (name.toList ++ ':' :: s) := by
    simpa [delimiter] using hbehind
  -- the first colon of both sides is that of the delimiter on the left
  have hleft := cut?_singleton_append hname behind
  by_cases hcolon : ':' ∈ rest
  · obtain ⟨first, more, rfl, hfirst⟩ := List.eq_append_cons_of_mem hcolon
    rw [htext, List.append_assoc, List.cons_append, cut?_singleton_append hfirst] at hleft
    obtain ⟨rfl, -⟩ := Prod.mk.inj (Option.some.inj hleft)
    exact ha ⟨front, more, by simp [delimiter]⟩
  · have hnone : ':' ∉ rest ++ name.toList := by simp [hcolon, hname]
    rw [htext, ← List.append_assoc, cut?_singleton_append hnone] at hleft
    have hlength := congrArg List.length (Prod.mk.inj (Option.some.inj hleft)).1
    rw [List.length_append] at hlength
    omega

/-- **Texts without the delimiter are the fragments of what they are joined to**, if the delimiter
stands in front of each but the first. -/
theorem fragments_flatMap_delimiter (hname : ':' ∉ name.toList) {pieces : List (List Char)}
    (ha : ¬ delimiter name <:+: a) (hpieces : ∀ piece ∈ pieces, ¬ delimiter name <:+: piece) :
    fragments (delimiter name) (a ++ pieces.flatMap (delimiter name ++ ·)) = a :: pieces := by
  have hd := delimiter_ne_nil name
  induction pieces generalizing a with
  | nil => rw [List.flatMap_nil, List.append_nil, fragments_of_not_isInfix hd ha]
  | cons piece pieces ih =>
    have hrest := ih (hpieces piece List.mem_cons_self)
      fun piece' h => hpieces piece' (List.mem_cons_of_mem _ h)
    rw [List.flatMap_cons, List.append_assoc,
      fragments_append_of_not_occursAt hd fun k => not_occursAt_seam hname ha,
      fragments_delimiter_append hd, hrest, List.modifyHead_cons, List.append_nil]

end Seam

/-! ### Messages that are written and read -/

namespace Diagnostic

/-- The text of a message about a line: the digits of the line, and what is said about it. -/
def textAbout (n : ℕ) (remark : String) : String := String.ofList (Nat.toDigits 10 n) ++ remark

/-- What a compiler writes about the file: a lead, and the messages about its lines, each behind the
name and a colon and in front of a line feed. -/
def writeOutput (name lead : String) (messages : List (ℕ × String)) : String :=
  lead ++ String.join (messages.map fun m => name ++ ":" ++ textAbout m.1 m.2 ++ "\n")

/-- A message about a line of the file can be told from what is around it: its line fits a word,
what it says neither goes on with the digits of the line nor ends in a blank, and it does not hold
the delimiter. -/
structure IsLegible (name : String) (n : ℕ) (remark : String) : Prop where
  lt_wordLimit : n < wordLimit
  head_not_digit : ∀ c ∈ remark.toList.head?, c.isDigit = false
  last_not_blank : ∀ c ∈ remark.toList.getLast?, isBlank c = false
  not_isInfix : ¬ delimiter name <:+: (textAbout n remark).toList

section Messages

variable {name : String} {n : ℕ} {remark : String}

/-- The text of a message begins with the digits of its line. -/
lemma toList_textAbout (n : ℕ) (remark : String) :
    (textAbout n remark).toList = Nat.toDigits 10 n ++ remark.toList := by
  rw [textAbout, String.toList_append, String.toList_ofList]

/-- Written messages are texts with the delimiter in front of each. -/
lemma toList_writeOutput (name lead : String) (messages : List (ℕ × String)) :
    (writeOutput name lead messages).toList = lead.toList ++
      (messages.map fun m => (textAbout m.1 m.2).toList ++ ['\n']).flatMap
        (delimiter name ++ ·) := by
  rw [writeOutput, String.toList_append, String.toList_join, List.flatMap_map, List.flatMap_map]
  congr 1
  apply List.flatMap_congr
  intro m _
  simp only [String.toList_append, delimiter, List.append_assoc]
  rfl

/-- The text of a message does not end in a blank. -/
lemma IsLegible.getLast?_textAbout (h : IsLegible name n remark) :
    ∀ c ∈ (textAbout n remark).toList.getLast?, isBlank c = false := by
  intro c hc
  rw [toList_textAbout, List.getLast?_append, Option.mem_def, Option.or_eq_some_iff] at hc
  rcases hc with hc | ⟨-, hc⟩
  · exact h.last_not_blank c hc
  · exact isBlank_eq_false_of_isDigit (Json.isDigit_of_mem_printNat (List.mem_of_getLast? hc))

/-- A message is read back from its text and the line feed behind it. -/
lemma IsLegible.ofFragment (h : IsLegible name n remark) :
    ofFragment ((textAbout n remark).toList ++ ['\n']) = ⟨n, textAbout n remark⟩ := by
  rw [Diagnostic.ofFragment, trimEnd_concat_newline h.getLast?_textAbout, String.ofList_toList,
    toList_textAbout, leadingNumber_toDigits_append h.lt_wordLimit h.head_not_digit]

/-- A lead makes an unattributed message, unless it is blank. -/
lemma ofLead_eq (lead : List Char) :
    ofLead lead = if lead.all isBlank then [] else [⟨0, String.ofList (trim lead)⟩] := by
  have hblank : (trim lead).isEmpty = lead.all isBlank := by
    rw [Bool.eq_iff_iff, List.isEmpty_iff, trim_eq_nil_iff, List.all_eq_true]
  rw [ofLead, hblank]

/-- The messages of an output are those of its fragments: the first one is the lead. -/
lemma ofOutput_eq_of_fragments {output : String} {lead : List Char} {pieces : List (List Char)}
    (h : fragments (delimiter name) output.toList = lead :: pieces) :
    ofOutput name output =
      (if lead.all isBlank then [] else [⟨0, String.ofList (trim lead)⟩]) ++
        pieces.map Diagnostic.ofFragment := by
  rw [ofOutput, h, ← ofLead_eq]

/-- **Written messages are read back, and every output has a message for each occurrence.**  From an
output that a compiler wrote about a file whose name holds no colon, the messages are read back as
they were written, behind the lead if it is not blank.  Any output has exactly one list of places of
the delimiter from left to right without overlap: there is one message for each place, made of the
text between this place and the next, and one more for a lead that is not blank. -/
theorem ofOutput_reads_written (name : String) :
    (':' ∉ name.toList → ∀ (lead : String) (messages : List (ℕ × String)),
      ¬ delimiter name <:+: lead.toList → (∀ m ∈ messages, IsLegible name m.1 m.2) →
        ofOutput name (writeOutput name lead messages) =
          (if lead.toList.all isBlank then [] else [⟨0, String.ofList (trim lead.toList)⟩]) ++
            messages.map fun m => ⟨m.1, textAbout m.1 m.2⟩) ∧
    ∀ output : String, ∃ places,
      IsLeftToRight (delimiter name) output.toList places ∧
      (∀ others, IsLeftToRight (delimiter name) output.toList others → others = places) ∧
      ofOutput name output =
        (if (leadAt output.toList places).all isBlank then []
          else [⟨0, String.ofList (trim (leadAt output.toList places))⟩]) ++
        (piecesAt (delimiter name) output.toList places).map (fun piece =>
          ⟨leadingNumber piece, String.ofList (trimEnd piece)⟩) ∧
      (ofOutput name output).length =
        places.length + if (leadAt output.toList places).all isBlank then 0 else 1 := by
  have hd := delimiter_ne_nil name
  constructor
  · intro hname lead messages hlead hmessages
    have hpieces : ∀ piece ∈ messages.map fun m => (textAbout m.1 m.2).toList ++ ['\n'],
        ¬ delimiter name <:+: piece := by
      intro piece hpiece
      obtain ⟨m, hm, rfl⟩ := List.mem_map.mp hpiece
      exact mt (delimiter_infix_concat_iff (by decide)).mp (hmessages m hm).not_isInfix
    have hfragments := fragments_flatMap_delimiter hname hlead hpieces
    rw [← toList_writeOutput] at hfragments
    rw [ofOutput_eq_of_fragments hfragments, List.map_map]
    congr 1
    exact List.map_congr_left fun m hm => (hmessages m hm).ofFragment
  · intro output
    obtain ⟨places, hplaces, hfragments⟩ := exists_isLeftToRight hd output.toList
    have hfragment : Diagnostic.ofFragment = fun piece =>
        ⟨leadingNumber piece, String.ofList (trimEnd piece)⟩ := by
      funext piece
      rw [Diagnostic.ofFragment, leadingNumber_trimEnd]
    have hmessages := ofOutput_eq_of_fragments hfragments
    rw [hfragment] at hmessages
    refine ⟨places, hplaces, fun others hothers => hplaces.eq hd hothers, hmessages, ?_⟩
    rw [hmessages, List.length_append, List.length_map, length_piecesAt, Nat.add_comm]
    split <;> rfl

end Messages

/-- Of two messages, the first runs over two lines and mentions another file, and the second is
only the largest line that fits a word.  Both are read back, behind the lead. -/
theorem ofOutput_reads_written_message_over_two_lines :
    let lead := "at 1: note\n"
    let messages := [(12, ": error 20\nin main.c:9: source.x"), (18446744073709551615, "")]
    ':' ∉ "source.c".toList ∧ ¬ delimiter "source.c" <:+: lead.toList ∧
      (∀ m ∈ messages, IsLegible "source.c" m.1 m.2) ∧
      writeOutput "source.c" lead messages =
        "at 1: note\nsource.c:12: error 20\nin main.c:9: source.x\nsource.c:18446744073709551615\n" ∧
      ofOutput "source.c" (writeOutput "source.c" lead messages) =
        [⟨0, "at 1: note"⟩, ⟨12, "12: error 20\nin main.c:9: source.x"⟩,
          ⟨18446744073709551615, "18446744073709551615"⟩] := by
  intro lead messages
  have hname : ':' ∉ "source.c".toList := by decide
  have hlead : ¬ delimiter "source.c" <:+: lead.toList := by decide +kernel
  have hmessages : ∀ m ∈ messages, IsLegible "source.c" m.1 m.2 := by
    intro m hm
    rcases List.mem_pair.mp hm with rfl | rfl
    · refine ⟨by decide, ?_, ?_, by decide +kernel⟩ <;> rintro c ⟨⟩ <;> decide
    · refine ⟨by decide, ?_, ?_, by decide +kernel⟩ <;> rintro c ⟨⟩
  refine ⟨hname, hlead, hmessages, by decide +kernel, ?_⟩
  rw [(ofOutput_reads_written "source.c").1 hname lead messages hlead hmessages]
  decide +kernel

end Diagnostic

end SectionLedger
