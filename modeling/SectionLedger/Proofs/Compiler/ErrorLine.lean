import Mathlib
import SectionLedger.Proofs.Compiler.ReadBack
import SectionLedger.Proofs.Text.Lines

/-!
# Messages and physical lines

Compiler output is read in two ways: cut at the delimiter into messages that may run over several
lines, and line by line.  Where the delimiter stands only where a line begins, each line that begins
with it gives one message, and the other lines belong to the message before them or to the lead
(`tail_fragments_joinLines`).  The number in front of a message ends on its line, so both ways find
the same source lines in the same order, unless a line goes on with a digit of another script.
-/

namespace SectionLedger

open Text

/-! ### Where lines begin -/

/-- A line begins at a place of a text: nothing is in front of it, or a line feed is. -/
def Text.BeginsLine (s : List Char) (k : ℕ) : Prop := ∀ c ∈ (s.take k).getLast?, c = '\n'

instance (s : List Char) (k : ℕ) : Decidable (BeginsLine s k) :=
  decidable_of_iff ((s.take k).getLast?.all (· == '\n') = true) <| by
    simp only [BeginsLine, Option.all_eq_true, beq_iff_eq, Option.mem_def]

section Line

variable {delimiter l rest s : List Char} {k : ℕ}

/-- No line begins inside a text without a line feed. -/
lemma Text.not_beginsLine (hl : '\n' ∉ l) (hpos : 0 < k) (hk : k ≤ l.length) :
    ¬ BeginsLine (l ++ rest) k := by
  intro hbegins
  rw [BeginsLine, List.take_append_of_le_length hk] at hbegins
  have hne : l.take k ≠ [] := by
    rw [← List.length_pos_iff, List.length_take_of_le hk]
    exact hpos
  have hlast := hbegins _ (List.getLast?_eq_some_getLast hne)
  exact hl (hlast ▸ List.mem_of_mem_take (List.getLast_mem hne))

/-- Behind a line feed, lines begin where they begin in the rest. -/
lemma Text.beginsLine_of_beginsLine_append
    (h : BeginsLine (l ++ '\n' :: s) ((l ++ ['\n']).length + k)) : BeginsLine s k := by
  intro c hc
  apply h c
  rw [List.append_cons l '\n' s, List.take_length_add_append, List.getLast?_append, hc]
  rfl

/-- A delimiter without a line feed that begins a text stands on the first line of it. -/
lemma prefix_of_prefix_append (hd : '\n' ∉ delimiter) (hrest : ∀ c ∈ rest.head?, c = '\n')
    (h : delimiter <+: l ++ rest) : delimiter <+: l := by
  rcases List.prefix_or_prefix_of_prefix h (List.prefix_append l rest) with hprefix | hprefix
  · exact hprefix
  · obtain ⟨more, rfl⟩ := hprefix
    have hmore : more <+: rest := (List.prefix_append_right_inj l).mp h
    cases more with
    | nil => rw [List.append_nil]
    | cons c more =>
      obtain ⟨behind, rfl⟩ := hmore
      obtain rfl : c = '\n' := hrest c rfl
      exact absurd (List.mem_append_right l List.mem_cons_self) hd

/-! ### The messages of lines -/

/-- **A line gives a message if it begins with the delimiter.**  The message begins with what is
behind the delimiter on the line, and goes on with what is in front of the first message of the
lines that follow. -/
lemma fragments_line (hne : delimiter ≠ []) (hl : '\n' ∉ l) (hd : '\n' ∉ delimiter)
    (hrest : ∀ c ∈ rest.head?, c = '\n')
    (hstart : ∀ k, OccursAt delimiter (l ++ rest) k → BeginsLine (l ++ rest) k) :
    (fragments delimiter (l ++ rest)).tail =
      (if delimiter <+: l then [l.drop delimiter.length ++ front delimiter rest] else []) ++
        (fragments delimiter rest).tail := by
  have hinside : ∀ k, 0 < k → k ≤ l.length → ¬ OccursAt delimiter (l ++ rest) k :=
    fun k hpos hk hoccurs => not_beginsLine hl hpos hk (hstart k hoccurs)
  have hfront := fragments_eq_front_cons hne rest
  split
  · next hprefix =>
    obtain ⟨behind, rfl⟩ := hprefix
    have hbehind : ∀ k < behind.length, ¬ OccursAt delimiter (behind ++ rest) k := by
      intro k hk hoccurs
      have hpos := List.length_pos_iff.mpr hne
      refine hinside (delimiter.length + k) (by omega) ?_ ?_
      · rw [List.length_append]
        omega
      · rw [List.append_assoc]
        exact occursAt_append_right.mpr hoccurs
    rw [List.append_assoc, fragments_delimiter_append hne,
      fragments_append_of_not_occursAt hne hbehind, hfront, List.drop_left]
    rfl
  · next hprefix =>
    have hnone : ∀ k < l.length, ¬ OccursAt delimiter (l ++ rest) k := by
      intro k hk
      cases k with
      | zero => exact mt (prefix_of_prefix_append hd hrest) hprefix
      | succ k => exact hinside (k + 1) (Nat.succ_pos k) hk.le
    rw [fragments_append_of_not_occursAt hne hnone, hfront]
    rfl

/-- A delimiter without a line feed leaves a line feed in front of the first message. -/
lemma fragments_newline (hne : delimiter ≠ []) (hd : '\n' ∉ delimiter) (s : List Char) :
    front delimiter ('\n' :: s) = '\n' :: front delimiter s ∧
      (fragments delimiter ('\n' :: s)).tail = (fragments delimiter s).tail := by
  have hnot : ¬ delimiter <+: '\n' :: s := by
    rintro ⟨behind, hbehind⟩
    obtain ⟨c, more, rfl⟩ := List.exists_cons_of_ne_nil hne
    obtain rfl : c = '\n' := (List.cons.inj hbehind).1
    exact hd List.mem_cons_self
  have hcons := fragments_cons_of_not_prefix hne hnot
  rw [fragments_eq_front_cons hne s, List.modifyHead_cons,
    fragments_eq_front_cons hne ('\n' :: s)] at hcons
  exact List.cons.inj hcons

/-- The messages behind the lead begin with the numbers of the lines that begin with the
delimiter. -/
theorem tail_fragments_joinLines (hne : delimiter ≠ []) (hd : '\n' ∉ delimiter)
    {lines : List (List Char)} (hlines : ∀ l ∈ lines, '\n' ∉ l)
    (hstart : ∀ k, OccursAt delimiter (joinLines lines) k → BeginsLine (joinLines lines) k) :
    (fragments delimiter (joinLines lines)).tail.map leadingNumber =
      (lines.filter delimiter.isPrefixOf).map fun l => leadingNumber (l.drop delimiter.length) := by
  have hnil : (fragments delimiter []).tail = [] := by
    rw [fragments_of_not_isInfix hne (mt List.infix_nil.mp hne)]
    rfl
  induction lines with
  | nil => exact congrArg _ hnil
  | cons l lines ih =>
    obtain ⟨rest, htext, hrest, hlater⟩ : ∃ rest, joinLines (l :: lines) = l ++ rest ∧
        (∀ c ∈ rest.head?, c = '\n') ∧ (fragments delimiter rest).tail.map leadingNumber =
          (lines.filter delimiter.isPrefixOf).map
            fun l => leadingNumber (l.drop delimiter.length) := by
      cases lines with
      | nil => exact ⟨[], (List.append_nil l).symm, by simp, congrArg _ hnil⟩
      | cons l' lines =>
        refine ⟨'\n' :: joinLines (l' :: lines), rfl, by simp, ?_⟩
        rw [(fragments_newline hne hd _).2]
        refine ih (fun l h => hlines l (List.mem_cons_of_mem _ h)) fun k hk => ?_
        apply beginsLine_of_beginsLine_append
        apply hstart
        rw [joinLines_cons_cons, List.append_cons]
        exact occursAt_append_right.mpr hk
    have hl : '\n' ∉ l := hlines l List.mem_cons_self
    have hfront : ∀ c ∈ (front delimiter rest).head?, c.isDigit = false := by
      intro c hc
      obtain ⟨more, hmore⟩ := front_prefix delimiter rest
      obtain rfl : c = '\n' := by
        apply hrest
        rw [← hmore, List.head?_append, hc]
        rfl
      rfl
    rw [htext] at hstart ⊢
    rw [fragments_line hne hl hd hrest hstart, List.map_append, hlater, List.filter_cons]
    by_cases hprefix : delimiter <+: l
    · rw [if_pos hprefix, if_pos (List.isPrefixOf_iff_prefix.mpr hprefix), List.map_singleton,
        leadingNumber_append hfront]
      rfl
    · rw [if_neg hprefix, if_neg (mt List.isPrefixOf_iff_prefix.mp hprefix)]
      rfl

end Line

/-! ### The source lines found in both ways -/

/-- Without digits of other scripts, a number in front of a text is read in both ways alike. -/
lemma ErrorLine.numberAtFront_eq {s : List Char}
    (h : ∀ c ∈ s, isDecimalDigit c = true → c.isDigit = true) :
    numberAtFront s = leadingNumber s := by
  have htake : s.takeWhile isDecimalDigit = s.takeWhile Char.isDigit := by
    induction s with
    | nil => rfl
    | cons c s ih =>
      have hc : isDecimalDigit c = c.isDigit :=
        Bool.eq_iff_iff.mpr ⟨h c List.mem_cons_self, isDecimalDigit_of_isDigit⟩
      rw [List.takeWhile_cons, List.takeWhile_cons, hc,
        ih fun c hc => h c (List.mem_cons_of_mem _ hc)]
  rw [numberAtFront, leadingNumber, htake]

/-- Of the lines of an output, those that begin with the delimiter have a number. -/
lemma ErrorLine.filter_map_lineOf (name : String) (lines : List (List Char)) :
    (lines.map (lineOf name)).filter (0 < ·) =
      ((lines.filter (delimiter name).isPrefixOf).map fun l =>
        numberAtFront (l.drop (delimiter name).length)).filter (0 < ·) := by
  induction lines with
  | nil => rfl
  | cons l lines ih =>
    rw [List.map_cons, List.filter_cons, ih, lineOf, List.filter_cons]
    by_cases hprefix : (delimiter name).isPrefixOf l = true
    · rw [if_pos hprefix, if_pos hprefix, List.map_cons, List.filter_cons]
    · rw [if_neg hprefix, if_neg hprefix]
      rfl

/-- Of the messages of an output, those behind the lead have a number. -/
lemma Diagnostic.map_line_filter_ofOutput (name output : String) :
    ((ofOutput name output).filter isAttributed).map (·.line) =
      ((fragments (delimiter name) output.toList).tail.map leadingNumber).filter (0 < ·) := by
  have hattributed : ((ofOutput name output).filter isAttributed).map (·.line) =
      ((ofOutput name output).map (·.line)).filter (0 < ·) := by
    rw [List.filter_map]
    rfl
  have hline : (fun d : Diagnostic => d.line) ∘ ofFragment = leadingNumber :=
    funext leadingNumber_trimEnd
  have hfragments := fragments_eq_front_cons (delimiter_ne_nil name) output.toList
  rw [hattributed, ofOutput_eq_of_fragments hfragments, List.map_append, List.map_map, hline,
    List.filter_append]
  split <;> simp

/-- **Both ways of reading an output find the same source lines.**  If a name holds no line feed,
an output holds no digits of other scripts than ASCII, and the delimiter stands only where a line
begins, then the numbers that are found on the physical lines are those of the attributed messages,
in the same order. -/
theorem ErrorLine.filter_line_ofOutput_eq {name output : String} (hname : '\n' ∉ name.toList)
    (hdigits : ∀ c ∈ output.toList, isDecimalDigit c = true → c.isDigit = true)
    (hstart : ∀ k, OccursAt (delimiter name) output.toList k → BeginsLine output.toList k) :
    ((ofOutput name output).map (·.line)).filter (0 < ·) =
      ((Diagnostic.ofOutput name output).filter Diagnostic.isAttributed).map (·.line) := by
  have hdelimiter : '\n' ∉ delimiter name := by simpa [delimiter] using hname
  have hlines : joinLines (splitLines output.toList) = output.toList :=
    joinLines_splitLines output.toList
  have hmessages := tail_fragments_joinLines (delimiter_ne_nil name) hdelimiter
    (fun l => not_mem_of_mem_splitLines) (hlines.symm ▸ hstart)
  have hnumbers : ∀ l ∈ (splitLines output.toList).filter (delimiter name).isPrefixOf,
      numberAtFront (l.drop (delimiter name).length) =
        leadingNumber (l.drop (delimiter name).length) := by
    intro l hl
    refine numberAtFront_eq fun c hc => hdigits c ?_
    rw [← hlines]
    exact mem_joinLines (List.mem_of_mem_filter hl) (List.mem_of_mem_drop hc)
  calc ((ofOutput name output).map (·.line)).filter (0 < ·)
      = ((splitLines output.toList).map (lineOf name)).filter (0 < ·) := by
        rw [ofOutput, List.map_map]
        rfl
    _ = (((splitLines output.toList).filter (delimiter name).isPrefixOf).map fun l =>
          leadingNumber (l.drop (delimiter name).length)).filter (0 < ·) := by
        rw [filter_map_lineOf, List.map_congr_left hnumbers]
    _ = ((fragments (delimiter name) output.toList).tail.map leadingNumber).filter (0 < ·) := by
        rw [← hmessages, hlines]
    _ = ((Diagnostic.ofOutput name output).filter Diagnostic.isAttributed).map (·.line) :=
        (Diagnostic.map_line_filter_ofOutput name output).symm

/-- The name has marks that patterns use, one line goes on with zero, one with zeros in front of its
number and one with a number that fits no word: the lines seven and twelve are found in both
ways. -/
theorem ErrorLine.filter_line_ofOutput_eq_of_odd_numbers :
    let name := "s(.+).c"
    let output := "note\ns(.+).c:007: a\ns(.+).c:0: b\n c\ns(.+).c:18446744073709551616\ns(.+).c:12"
    '\n' ∉ name.toList ∧ (∀ c ∈ output.toList, isDecimalDigit c = true → c.isDigit = true) ∧
      (∀ k, OccursAt (delimiter name) output.toList k → BeginsLine output.toList k) ∧
      ((ofOutput name output).map (·.line)).filter (0 < ·) = [7, 12] ∧
      ((Diagnostic.ofOutput name output).filter Diagnostic.isAttributed).map (·.line) = [7, 12] := by
  intro name output
  have hname : '\n' ∉ name.toList := by decide
  have hall : (output.toList.all fun c => !isDecimalDigit c || c.isDigit) = true := by
    decide +kernel
  have hdigits : ∀ c ∈ output.toList, isDecimalDigit c = true → c.isDigit = true := by
    intro c hc hdigit
    simpa [hdigit] using List.all_eq_true.mp hall c hc
  have hplaces : ∀ k < output.toList.length, OccursAt (delimiter name) output.toList k →
      BeginsLine output.toList k := by
    decide +kernel
  have hstart : ∀ k, OccursAt (delimiter name) output.toList k → BeginsLine output.toList k :=
    fun k hk => hplaces k (hk.lt_length (delimiter_ne_nil name)) hk
  have hlines : ((ofOutput name output).map (·.line)).filter (0 < ·) = [7, 12] := by
    decide +kernel
  refine ⟨hname, hdigits, hstart, hlines, ?_⟩
  rw [← filter_line_ofOutput_eq hname hdigits hstart, hlines]

end SectionLedger
