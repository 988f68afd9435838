import Mathlib
import SectionLedger.Proofs.Segmentation.Flat
import SectionLedger.Proofs.Source.ReadBack
import SectionLedger.Proofs.Text.Run

/-!
# White space at the ends of lines

How lines are cut does not depend on their indentation, nor on white space where they end
(`nestedSpans_congr`).  A line is classified by its trimmed text, and the brackets that are counted
in the whole line are no blanks, so none of them is trimmed (`Line.TrimsAlike.excess_eq`).

A file whose lines end in a carriage return and a line feed is split at the line feeds, and has the
carriage returns at the ends of its lines; so it is cut like the file without them
(`Source.forall₂_lines_ofFile_withReturns`).
-/

namespace SectionLedger

open Text

/-- Two lines differ at most in their indentation and in white space at their ends. -/
def Line.TrimsAlike (a b : String) : Prop := trim a.toList = trim b.toList

/-! ### One line -/

namespace Line.TrimsAlike

variable {a b : String} {opening closing : Char}

/-- Blanks behind a line make no difference to it. -/
lemma append_blanks {blanks : List Char} (h : ∀ c ∈ blanks, isBlank c = true) (s : List Char) :
    TrimsAlike (String.ofList (s ++ blanks)) (String.ofList s) := by
  rw [TrimsAlike, String.toList_ofList, String.toList_ofList, trim_append_blanks h]

/-- Lines that trim alike open the same. -/
lemma opening?_eq (h : TrimsAlike a b) : opening? a = opening? b := by
  rw [opening?, opening?, classify_congr h]

/-- A character that is no blank stands as often in both lines. -/
lemma count_eq (h : TrimsAlike a b) {c : Char} (hc : isBlank c = false) :
    a.toList.count c = b.toList.count c := by
  rw [← count_trim hc, h, count_trim hc]

/-- Both lines leave as many brackets open. -/
lemma excess_eq (h : TrimsAlike a b) (hopening : isBlank opening = false)
    (hclosing : isBlank closing = false) :
    excess opening closing a = excess opening closing b := by
  rw [excess, excess, h.count_eq hopening, h.count_eq hclosing]

/-- Both lines have a bracket of the pair, or neither has. -/
lemma hasBracket_eq (h : TrimsAlike a b) (hopening : isBlank opening = false)
    (hclosing : isBlank closing = false) :
    hasBracket opening closing a = hasBracket opening closing b := by
  have hcontains : ∀ c : Char, isBlank c = false → a.toList.contains c = b.toList.contains c := by
    intro c hc
    rw [Bool.eq_iff_iff, List.contains_iff_mem, List.contains_iff_mem, ← List.count_pos_iff,
      ← List.count_pos_iff, h.count_eq hc]
  rw [hasBracket, hasBracket, hcontains opening hopening, hcontains closing hclosing]

end Line.TrimsAlike

/-! ### One section -/

section Reach

variable {lines lines' rest rest' : List String} {first first' : String}

/-- Lines that trim alike have the same categories. -/
lemma Line.map_classify_eq (h : List.Forall₂ TrimsAlike lines lines') :
    lines.map classify = lines'.map classify := by
  rw [← List.forall₂_eq_eq_eq, List.forall₂_map_left_iff, List.forall₂_map_right_iff]
  exact h.imp fun a b hab => classify_congr hab

/-- Lines that trim alike balance brackets at the same line. -/
lemma Line.balance?_congr {opening closing : Char} (hopening : isBlank opening = false)
    (hclosing : isBlank closing = false) (h : List.Forall₂ TrimsAlike lines lines') (depth : Int)
    (met : Bool) :
    balance? opening closing depth met lines = balance? opening closing depth met lines' := by
  induction h generalizing depth met with
  | nil => rfl
  | cons hline hlines ih =>
    rw [balance?, balance?, hline.excess_eq hopening hclosing,
      hline.hasBracket_eq hopening hclosing]
    simp only [ih]

/-- The brackets that an extent counts, if it counts any, are no blanks. -/
def Extent.CountsInk : Extent → Prop
  | .balanced opening closing _ => isBlank opening = false ∧ isBlank closing = false
  | _ => True

/-- No category counts blanks. -/
lemma Category.countsInk_of_opening? {c : Category} {o : Opening} (h : c.opening? = some o) :
    o.extent.CountsInk := by
  have hbrace : isBlank '\x7b' = false ∧ isBlank '\x7d' = false := by decide
  have hparen : isBlank '(' = false ∧ isBlank ')' = false := by decide
  cases c with
  | procedureSignature | asmBraceOpen =>
    obtain rfl := Option.some.inj h
    exact hbrace
  | asmParenOpen =>
    obtain rfl := Option.some.inj h
    exact hparen
  | ifClose | blockCommentClose | asmFloorClose => contradiction
  | _ =>
    obtain rfl := Option.some.inj h
    trivial

/-- No line opens a section that counts blanks. -/
lemma Line.countsInk_of_opening? {line : String} {o : Opening} (h : opening? line = some o) :
    o.extent.CountsInk := by
  obtain ⟨c, -, hc⟩ := Option.bind_eq_some_iff.mp h
  exact Category.countsInk_of_opening? hc

/-- A section reaches as far in lines that trim alike. -/
lemma Extent.reach_congr {extent : Extent} (hextent : extent.CountsInk)
    (hfirst : Line.TrimsAlike first first') (hrest : List.Forall₂ Line.TrimsAlike rest rest') :
    extent.reach first rest = extent.reach first' rest' := by
  have hcategories := Line.map_classify_eq hrest
  cases extent with
  | single => rfl
  | run category =>
    have hlength : ∀ ls : List String,
        (ls.takeWhile fun l => decide (Line.classify l = some category)).length =
          ((ls.map Line.classify).takeWhile fun c => decide (c = some category)).length := by
      intro ls
      rw [List.takeWhile_map, List.length_map]
      rfl
    rw [reach, reach, hlength, hlength, hcategories]
  | upTo closer construct =>
    have hfind : ∀ ls : List String,
        (ls.findIdx? fun l => decide (Line.classify l = some closer)) =
          (ls.map Line.classify).findIdx? fun c => decide (c = some closer) := by
      intro ls
      rw [List.findIdx?_map]
      rfl
    simp only [reach, hfind, hcategories]
  | balanced opening closing construct =>
    simp only [reach, Line.balance?_congr hextent.1 hextent.2 (.cons hfirst hrest)]

end Reach

/-! ### All sections -/

/-- One pass finds the same in lines that trim alike. -/
theorem flatSpans_congr (number : ℕ) {lines lines' : List String}
    (h : List.Forall₂ Line.TrimsAlike lines lines') :
    flatSpans number lines = flatSpans number lines' := by
  induction number, lines using flatSpans.induct generalizing lines' with
  | case1 number =>
    obtain rfl := List.forall₂_nil_left_iff.mp h
    rfl
  | case2 number line lines ho ih =>
    obtain ⟨line', lines', hline, hlines, rfl⟩ := List.forall₂_cons_left_iff.mp h
    have ho' : Line.opening? line' = none := hline.opening?_eq ▸ ho
    rw [flatSpans_cons_of_none ho, flatSpans_cons_of_none ho', ih hlines]
  | case3 number line lines o ho construct hr =>
    obtain ⟨line', lines', hline, hlines, rfl⟩ := List.forall₂_cons_left_iff.mp h
    have ho' : Line.opening? line' = some o := hline.opening?_eq ▸ ho
    have hr' : o.extent.reach line' lines' = .error construct :=
      Extent.reach_congr (Line.countsInk_of_opening? ho) hline hlines ▸ hr
    rw [flatSpans_cons_of_error ho hr, flatSpans_cons_of_error ho' hr']
  | case4 number line lines o ho n hr ih =>
    obtain ⟨line', lines', hline, hlines, rfl⟩ := List.forall₂_cons_left_iff.mp h
    have ho' : Line.opening? line' = some o := hline.opening?_eq ▸ ho
    have hr' : o.extent.reach line' lines' = .ok n :=
      Extent.reach_congr (Line.countsInk_of_opening? ho) hline hlines ▸ hr
    rw [flatSpans_cons_of_ok ho hr, flatSpans_cons_of_ok ho' hr', ih (List.forall₂_drop n hlines)]

/-- The nested pass finds the same in lines that trim alike. -/
theorem nestedSpans_congr (depth offset : ℕ) {lines lines' : List String}
    (h : List.Forall₂ Line.TrimsAlike lines lines') :
    nestedSpans depth offset lines = nestedSpans depth offset lines' := by
  induction depth generalizing offset lines lines' with
  | zero => exact flatSpans_congr (offset + 1) h
  | succ depth ih =>
    -- the bodies are the same ranges of lines, so they trim alike too
    have hbody : ∀ s : Span, nestedSpans depth s.first (s.body offset lines) =
        nestedSpans depth s.first (s.body offset lines') := fun s =>
      ih s.first (List.forall₂_take _ (List.forall₂_drop _ h))
    rw [nestedSpans, nestedSpans, flatSpans_congr (offset + 1) h]
    simp only [hbody]

/-! ### Carriage returns -/

/-- The text with a carriage return in front of every line feed. -/
def Text.withReturns (s : List Char) : List Char :=
  s.flatMap fun c => if c = '\n' then ['\r', '\n'] else [c]

/-- The lines of a text with carriage returns have them at their ends, and any blanks behind the
text at the end of the last line. -/
lemma Text.forall₂_splitLines_withReturns {blanks : List Char}
    (hblanks : ∀ c ∈ blanks, isBlank c = true) (hnewline : '\n' ∉ blanks) (s : List Char) :
    List.Forall₂ (fun a b => ∃ w, (∀ c ∈ w, isBlank c = true) ∧ a = b ++ w)
      (splitLines (withReturns s ++ blanks)) (splitLines s) := by
  induction s with
  | nil =>
    rw [withReturns, List.flatMap_nil, List.nil_append, splitLines_of_not_mem hnewline]
    exact .cons ⟨blanks, hblanks, rfl⟩ .nil
  | cons c s ih =>
    by_cases hc : c = '\n'
    · subst hc
      have hreturn : '\n' ∉ ['\r'] := by decide
      have hblank : ∀ c ∈ ['\r'], isBlank c = true := List.forall_mem_singleton.mpr (by decide)
      have htext : withReturns ('\n' :: s) ++ blanks =
          ['\r'] ++ '\n' :: (withReturns s ++ blanks) := by simp [withReturns]
      rw [htext, splitLines_append_newline hreturn, splitLines, if_pos rfl]
      exact .cons ⟨['\r'], hblank, rfl⟩ ih
    · have htext : withReturns (c :: s) ++ blanks = c :: (withReturns s ++ blanks) := by
        simp [withReturns, hc]
      obtain ⟨line, lines, hlines⟩ := List.exists_cons_of_ne_nil (splitLines_ne_nil s)
      obtain ⟨line', lines', hlines'⟩ :=
        List.exists_cons_of_ne_nil (splitLines_ne_nil (withReturns s ++ blanks))
      rw [hlines, hlines'] at ih
      obtain ⟨⟨w, hw, hline⟩, hrest⟩ := List.forall₂_cons.mp ih
      rw [htext, splitLines, splitLines, if_neg hc, if_neg hc, hlines, hlines', hline]
      exact .cons ⟨w, hw, rfl⟩ hrest

namespace Source

/-- The lines of a text with carriage returns, and perhaps more blanks behind it, trim like those of
the text. -/
lemma forall₂_lines_ofText_withReturns {blanks : List Char}
    (hblanks : ∀ c ∈ blanks, isBlank c = true) (hnewline : '\n' ∉ blanks) (s : List Char) :
    List.Forall₂ Line.TrimsAlike (ofText (String.ofList (withReturns s ++ blanks))).lines
      (ofText (String.ofList s)).lines := by
  rw [ofText, ofText, String.toList_ofList, String.toList_ofList, List.forall₂_map_left_iff,
    List.forall₂_map_right_iff]
  refine (forall₂_splitLines_withReturns hblanks hnewline s).imp ?_
  rintro a b ⟨w, hw, rfl⟩
  exact .append_blanks hw b

/-- The lines of a file with carriage returns trim like those of the file without them. -/
theorem forall₂_lines_ofFile_withReturns (s : List Char) :
    List.Forall₂ Line.TrimsAlike (ofFile (String.ofList (withReturns s))).lines
      (ofFile (String.ofList s)).lines := by
  have hnil : ∀ c ∈ ([] : List Char), isBlank c = true := List.forall_mem_nil _
  rcases List.eq_nil_or_concat' s with rfl | ⟨init, last, rfl⟩
  · exact forall₂_lines_ofText_withReturns hnil List.not_mem_nil []
  · by_cases hlast : last = '\n'
    · subst hlast
      have hreturns : String.ofList (withReturns (init ++ ['\n'])) =
          String.ofList (withReturns init ++ ['\r']) ++ "\n" := by
        apply String.ext
        simp [withReturns]
      have htext : String.ofList (init ++ ['\n']) = String.ofList init ++ "\n" := by
        apply String.ext
        simp
      rw [hreturns, htext, lines_ofFile_append_newline, lines_ofFile_append_newline]
      exact forall₂_lines_ofText_withReturns (List.forall_mem_singleton.mpr (by decide))
        (by decide) init
    · have hnone : ∀ t : List Char, t.getLast? = some last →
          ofFile (String.ofList t) = ofText (String.ofList t) := by
        intro t ht
        rw [ofFile, String.toList_ofList, ht, if_neg (by simpa using hlast)]
      have hreturns : withReturns (init ++ [last]) = withReturns init ++ [last] := by
        simp [withReturns, hlast]
      rw [hnone _ List.getLast?_concat, hnone _ (hreturns ▸ List.getLast?_concat)]
      simpa using forall₂_lines_ofText_withReturns hnil List.not_mem_nil (init ++ [last])

end Source

/-- **White space at the ends of lines makes no difference.**  Lines that are pairwise equal after
trimming are cut into the same spans in the same order, or fail with the same fault.  In particular
a file is cut the same whether its lines end in a line feed or in a carriage return and a line
feed. -/
theorem nestedSpans_ignores_trimmed (depth offset : ℕ) :
    (∀ lines lines' : List String, List.Forall₂ Line.TrimsAlike lines lines' →
      nestedSpans depth offset lines = nestedSpans depth offset lines') ∧
    ∀ text : String,
      nestedSpans depth offset (Source.ofFile (String.ofList (withReturns text.toList))).lines =
        nestedSpans depth offset (Source.ofFile text).lines := by
  refine ⟨fun lines lines' h => nestedSpans_congr depth offset h, fun text => ?_⟩
  have hlines := Source.forall₂_lines_ofFile_withReturns text.toList
  rw [String.ofList_toList] at hlines
  exact nestedSpans_congr depth offset hlines

/-- A procedure that is indented otherwise and has carriage returns at its lines is cut the same,
and so is one without an end. -/
theorem nestedSpans_ignores_trimmed_of_procedure :
    let lines := ["int f(void)", "\x7b", "    // a", "\x7d"]
    let respaced := ["\tint f(void)\r", "  \x7b \r", "// a\r", "\x7d\u00a0\r"]
    List.Forall₂ Line.TrimsAlike respaced lines ∧
      nestedSpans 1 10 respaced = nestedSpans 1 10 lines ∧
      nestedSpans 1 10 lines = .ok [⟨⟨11, 14⟩, Kind.procedure⟩, ⟨⟨13, 13⟩, Kind.comment⟩] ∧
      nestedSpans 1 10 (respaced.take 2) = nestedSpans 1 10 (lines.take 2) ∧
      nestedSpans 1 10 (lines.take 2) = .error (.unterminated .procedureBody 11) := by
  intro lines respaced
  have halike : List.Forall₂ Line.TrimsAlike respaced lines := by
    refine .cons ?_ (.cons ?_ (.cons ?_ (.cons ?_ .nil))) <;> unfold Line.TrimsAlike <;>
      decide +kernel
  exact ⟨halike, (nestedSpans_ignores_trimmed 1 10).1 _ _ halike, by decide +kernel,
    (nestedSpans_ignores_trimmed 1 10).1 _ _ (List.forall₂_take 2 halike), by decide +kernel⟩

end SectionLedger
