import Mathlib
import SectionLedger.Proofs.Segmentation.Progress
import SectionLedger.Proofs.Text.Pattern

/-!
# Comments that close on the line that opens them

The line table knows a comment of one line by its last two characters, so it takes a line for such a
comment only if nothing is behind the closing mark (`Line.IsOneComment`).  Every other line that
begins with the opening mark is taken for the first line of a longer comment, whether or not a
closing mark stands on it.

What the pass makes of such a line is said of the states of the pass, `PassReaches`: the position
that it has come to, with the sections that it has found before.
-/

namespace SectionLedger

/-! ### The rows of the line table for comments -/

namespace Line

/-- A text that begins with the opening mark of a comment. -/
def OpensComment (text : List Char) : Prop := ∃ behind, text = '/' :: '*' :: behind

/-- A text that opens a comment and has a closing mark behind the opening one. -/
def ClosesComment (text : List Char) : Prop :=
  ∃ body behind, text = '/' :: '*' :: (body ++ '*' :: '/' :: behind)

/-- A text that is one comment: it ends with the closing mark, and the comment has no line feed. -/
def IsOneComment (text : List Char) : Prop :=
  ∃ body, '\n' ∉ body ∧ text = '/' :: '*' :: (body ++ ['*', '/'])

/-- A comment that closes has an opening mark. -/
lemma ClosesComment.opensComment {text : List Char} (h : ClosesComment text) :
    OpensComment text := by
  obtain ⟨body, behind, rfl⟩ := h
  exact ⟨_, rfl⟩

/-- A text that is one comment closes it. -/
lemma IsOneComment.closesComment {text : List Char} (h : IsOneComment text) :
    ClosesComment text := by
  obtain ⟨body, -, rfl⟩ := h
  exact ⟨body, [], rfl⟩

open Text Pattern

/-- The row of comments of one line matches the texts that are one comment. -/
lemma matchesFront_inlineComment_iff {text : List Char} :
    (inOrder [word "/*", .many notLineFeed, word "*/", .finish]).matchesFront text = true ↔
      IsOneComment text := by
  have hopening : "/*".toList = ['/', '*'] := rfl
  have hclosing : "*/".toList = ['*', '/'] := rfl
  simp only [matchesFront_iff, inOrder, word, mem_rests_seq, mem_rests_literal, mem_rests_many,
    mem_rests_finish, hopening, hclosing]
  constructor
  · rintro ⟨_, _, rfl, _, ⟨body, rfl, hbody⟩, _, rfl, rfl, rfl⟩
    refine ⟨body, ?_, rfl⟩
    intro hmem
    exact absurd (hbody _ hmem) (by decide)
  · rintro ⟨body, hbody, rfl⟩
    refine ⟨[], body ++ ['*', '/'], rfl, ['*', '/'], ⟨body, rfl, ?_⟩, [], rfl, rfl, rfl⟩
    intro c hc
    have hne : c ≠ '\n' := fun heq => hbody (heq ▸ hc)
    exact bne_iff_ne.mpr hne

/-- Of a text with an opening mark, only the two rows of comments that open decide. -/
lemma categoryOf_of_opensComment {text : List Char} (h : OpensComment text) :
    categoryOf text =
      if (inOrder [word "/*", .many notLineFeed, word "*/", .finish]).matchesFront text then
        some .inlineBlockComment
      else some .blockCommentOpen := by
  obtain ⟨behind, rfl⟩ := h
  have hif : ifPattern.matchesFront ('/' :: '*' :: behind) = false := rfl
  have hendif : (word "#endif").matchesFront ('/' :: '*' :: behind) = false := rfl
  have hdirective : directivePattern.matchesFront ('/' :: '*' :: behind) = false := rfl
  have hline : (word "//").matchesFront ('/' :: '*' :: behind) = false := rfl
  have hopen : (word "/*").matchesFront ('/' :: '*' :: behind) = true := rfl
  unfold categoryOf lineTable
  simp only [List.find?_cons, hif, hendif, hdirective, hline, hopen]
  split <;> simp_all

/-- A line that is one comment is classified as such. -/
lemma classify_of_isOneComment {line : String} (h : IsOneComment (trim line.toList)) :
    classify line = some .inlineBlockComment := by
  have hopens : OpensComment (trim line.toList) := h.closesComment.opensComment
  rw [classify, categoryOf_of_opensComment hopens,
    if_pos (matchesFront_inlineComment_iff.mpr h)]

/-- Any other line with an opening mark is classified as the first line of a longer comment. -/
lemma classify_of_not_isOneComment {line : String} (hopens : OpensComment (trim line.toList))
    (h : ¬ IsOneComment (trim line.toList)) : classify line = some .blockCommentOpen := by
  rw [classify, categoryOf_of_opensComment hopens,
    if_neg (mt matchesFront_inlineComment_iff.mp h)]

end Line

/-! ### Lines with an opening mark -/

section CommentLine

variable {lines : List String} {m : ℕ} {found : List Span} {line : String}

/-- A line that the pass takes as a comment of its own is one comment: a longer comment would take
one more line at least. -/
lemma Line.isOneComment_of_passReaches (hline : lines[m]? = some line)
    (hopens : Line.OpensComment (Text.trim line.toList))
    (h : PassReaches lines (m + 1) (found ++ [⟨⟨m, m⟩, Kind.comment⟩])) :
    Line.IsOneComment (Text.trim line.toList) := by
  by_contra hlonger
  have hcategory := Line.classify_of_not_isOneComment hopens hlonger
  have hopening : Line.opening? line =
      some ⟨Kind.comment, .upTo .blockCommentClose .blockComment⟩ := by
    rw [Line.opening?, hcategory]
    rfl
  -- the last step of the pass was at this line, or it took the section that is found last
  generalize hposition : m + 1 = position at h
  generalize hspans : found ++ [(⟨⟨m, m⟩, Kind.comment⟩ : Span)] = spans at h
  cases h with
  | start => contradiction
  | skip h hline' hnone =>
    obtain rfl := Nat.succ.inj hposition
    obtain rfl := Option.some.inj (hline.symm.trans hline')
    rw [hopening] at hnone
    contradiction
  | take h hline' hopen hreach =>
    obtain ⟨-, hspan⟩ := List.append_inj' hspans rfl
    simp only [List.cons.injEq, Span.mk.injEq, Interval.mk.injEq, and_true] at hspan
    obtain ⟨⟨rfl, hlast⟩, -⟩ := hspan
    obtain rfl := Option.some.inj (hline.symm.trans hline')
    obtain rfl := Option.some.inj (hopening.symm.trans hopen)
    simp only [Extent.reach] at hreach
    split at hreach
    · have hpositive := Except.ok.inj hreach
      omega
    · contradiction

/-- **What the pass makes of a line with an opening mark.**  It takes the line as a comment of its
own and goes on with the next line exactly if the line is one comment, with nothing behind the
closing mark; whatever it finds or fails at then is on other lines.  Any other such line begins a
section that reaches up to the next line that is classified as the end of a comment, and without
one the pass fails there. -/
theorem PassReaches.takes_comment_line_iff (h : PassReaches lines m found)
    (hline : lines[m]? = some line) (hopens : Line.OpensComment (Text.trim line.toList)) :
    (PassReaches lines (m + 1) (found ++ [⟨⟨m, m⟩, Kind.comment⟩]) ↔
      Line.IsOneComment (Text.trim line.toList)) ∧
    (Line.IsOneComment (Text.trim line.toList) → ∀ offset,
      flatSpans (offset + 1) lines =
        (flatSpans (offset + 1 + (m + 1)) (lines.drop (m + 1))).map
          ((found ++ [(⟨⟨m, m⟩, Kind.comment⟩ : Span)]).map (Span.shift (offset + 1)) ++ ·)) ∧
    (¬ Line.IsOneComment (Text.trim line.toList) →
      (∀ j, IsFirstAfter lines .blockCommentClose m j →
        PassReaches lines (j + 1) (found ++ [⟨⟨m, j⟩, Kind.comment⟩])) ∧
      ((∀ j, ¬ IsFirstAfter lines .blockCommentClose m j) → ∀ offset,
        flatSpans (offset + 1) lines =
          .error (.unterminated .blockComment (offset + 1 + m)))) := by
  have hat : categoryAt lines m = Line.classify line := by
    rw [categoryAt, hline, Option.bind_some]
  have htake : Line.IsOneComment (Text.trim line.toList) →
      PassReaches lines (m + 1) (found ++ [⟨⟨m, m⟩, Kind.comment⟩]) := by
    intro hone
    rw [Line.classify_of_isOneComment hone] at hat
    exact h.take_of_endsAt hat rfl rfl
  refine ⟨⟨Line.isOneComment_of_passReaches hline hopens, htake⟩, ?_, ?_⟩
  · intro hone offset
    exact (htake hone).flatSpans_eq (offset + 1)
  · intro hlonger
    rw [Line.classify_of_not_isOneComment hopens hlonger] at hat
    constructor
    · intro j hj
      exact h.take_of_endsAt hat rfl hj
    · intro hnone offset
      obtain ⟨construct, hconstruct, hfails⟩ : ∃ construct,
          Category.blockCommentOpen.construct? = some construct ∧
            flatSpans (offset + 1 + m) (lines.drop m) =
              .error (.unterminated construct (offset + 1 + m)) :=
        flatSpans_drop_of_not_endsAt hat rfl hnone
      obtain rfl := Option.some.inj hconstruct
      rw [h.flatSpans_eq, hfails]
      rfl

end CommentLine

/-- After a declaration, an indented comment with a brace in it is taken by itself, and the comment
behind it is found from the next line on. -/
theorem takes_comment_line_after_declaration :
    let lines := ["int x;", "  /* a \x7b */ ", "/* b", "c */"]
    PassReaches lines 1 [⟨⟨0, 0⟩, Kind.variableDecl⟩] ∧
      Line.OpensComment (Text.trim "  /* a \x7b */ ".toList) ∧
      PassReaches lines 2 [⟨⟨0, 0⟩, Kind.variableDecl⟩, ⟨⟨1, 1⟩, Kind.comment⟩] ∧
      flatSpans 1 lines =
        .ok [⟨⟨1, 1⟩, Kind.variableDecl⟩, ⟨⟨2, 2⟩, Kind.comment⟩, ⟨⟨3, 4⟩, Kind.comment⟩] := by
  intro lines
  have hvariable : categoryAt lines 0 = some .variableDecl := by decide +kernel
  have hend : Category.EndsAt lines 0 0 .variableDecl := by
    refine ⟨le_rfl, ?_, by decide +kernel⟩
    intro k _ hk
    rwa [Nat.le_zero.mp hk]
  have hreaches : PassReaches lines 1 [⟨⟨0, 0⟩, Kind.variableDecl⟩] :=
    PassReaches.start.take_of_endsAt hvariable rfl hend
  have htrim : Text.trim "  /* a \x7b */ ".toList = "/* a \x7b */".toList := by decide +kernel
  have hone : Line.IsOneComment (Text.trim "  /* a \x7b */ ".toList) := by
    rw [htrim]
    exact ⟨" a \x7b ".toList, by decide, rfl⟩
  have hopens := hone.closesComment.opensComment
  have hat : lines[1]? = some "  /* a \x7b */ " := rfl
  have hline := PassReaches.takes_comment_line_iff hreaches hat hopens
  have hrest : flatSpans 3 (lines.drop 2) = .ok [⟨⟨3, 4⟩, Kind.comment⟩] := by decide +kernel
  refine ⟨hreaches, hopens, hline.1.mpr hone, ?_⟩
  rw [hline.2.1 hone 0, hrest]
  rfl

/-- Behind a comment that closes on its line there may be a declaration.  The line is then taken for
the first line of a longer comment: the pass fails there for want of an end, and with an end on a
later line the comment takes the declarations with it. -/
theorem not_takes_comment_line_with_declaration :
    let lines := ["/* a */ int x;", "int y;"]
    PassReaches lines 0 [] ∧ Line.ClosesComment (Text.trim "/* a */ int x;".toList) ∧
      ¬ PassReaches lines 1 [⟨⟨0, 0⟩, Kind.comment⟩] ∧
      flatSpans 1 lines = .error (.unterminated .blockComment 1) ∧
      flatSpans 1 (lines ++ ["b */"]) = .ok [⟨⟨1, 3⟩, Kind.comment⟩] := by
  intro lines
  have htrim : Text.trim "/* a */ int x;".toList = "/* a */ int x;".toList := by decide +kernel
  have hcloses : Line.ClosesComment (Text.trim "/* a */ int x;".toList) := by
    rw [htrim]
    exact ⟨" a ".toList, " int x;".toList, rfl⟩
  refine ⟨.start, hcloses, ?_, by decide +kernel, by decide +kernel⟩
  intro hreaches
  have hline : lines[0]? = some "/* a */ int x;" := rfl
  have hreaches' : PassReaches lines (0 + 1) ([] ++ [⟨⟨0, 0⟩, Kind.comment⟩]) := hreaches
  have hone : Line.IsOneComment (Text.trim "/* a */ int x;".toList) :=
    Line.isOneComment_of_passReaches hline hcloses.opensComment hreaches'
  obtain ⟨body, -, hbody⟩ := hone
  rw [htrim] at hbody
  have hlast := congrArg List.getLast? hbody
  have hmark : '/' :: '*' :: (body ++ ['*', '/']) = ('/' :: '*' :: (body ++ ['*'])) ++ ['/'] := by
    simp
  rw [hmark, List.getLast?_concat] at hlast
  exact absurd hlast (by decide)

end SectionLedger
