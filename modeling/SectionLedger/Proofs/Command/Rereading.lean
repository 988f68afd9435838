import Mathlib
import SectionLedger.Proofs.Command.Persistence

/-!
# Lines that are deleted from a file

A source is read from a file, loses some of its lines, and is written back.  Whether a line feed
ends the file is settled when it is read, whatever lines are left.  So the file that is written need
not have the lines that are left: if none are, it still has an empty one, and an empty last line
that no line feed follows is lost (`Source.LosesLast`).  In every other case the lines of the file
are those of the source.  In every case the file is cut as the source is, so the line numbers of the
spans hold for both (`Source.ReadsBack`).

What this rests on is preserved by each deletion, so it holds after any number of them
(`foldlM_invariant`): no line has a line feed in it, and a file that is empty stays empty.
-/

namespace SectionLedger

namespace Source

variable {s s' : Source} {ranges : List Interval}

/-- What is read from the file that a source is written to. -/
structure ReadsBack (s reread : Source) : Prop where
  /-- The lines are the same if there are any and the last one is not lost. -/
  lines_eq_iff : reread.lines = s.lines ↔ s.lines ≠ [] ∧ ¬ s.LosesLast
  /-- Where there are no lines, there is one that is empty. -/
  of_nil : s.lines = [] → reread.lines = [""]
  /-- Only the last line is lost, which is empty. -/
  of_losesLast : s.LosesLast → s.lines = reread.lines ++ [""]
  /-- The lines are cut the same, or fail to be cut for the same reason, to every depth. -/
  nestedSpans_eq : ∀ depth offset,
    nestedSpans depth offset reread.lines = nestedSpans depth offset s.lines
  /-- The spans of the lines are ranges of both, with the same text in both. -/
  snapshot_eq : ∀ depth spans, nestedSpans depth 0 s.lines = .ok spans → ∀ span ∈ spans,
    ∃ text, s.snapshot span.toInterval = .ok text ∧ reread.snapshot span.toInterval = .ok text

/-- A source whose lines hold no line feeds is read back from the text of its file. -/
lemma IsSplit.readsBack (h : s.IsSplit) : s.ReadsBack (.ofFile s.fileText) := by
  have hsame : SameLines (ofFile s.fileText).lines s.lines := sameLines_ofFile_fileText h
  exact {
    lines_eq_iff := h.lines_ofFile_fileText_eq_iff
    of_nil := lines_ofFile_fileText_of_nil
    of_losesLast := h.lines_ofFile_fileText_of_losesLast
    nestedSpans_eq := hsame.nestedSpans_eq
    snapshot_eq := by
      intro depth spans hspans span hspan
      have hspans' : nestedSpans depth 0 (ofFile s.fileText).lines = .ok spans :=
        (hsame.nestedSpans_eq depth 0).trans hspans
      have hcovers := (nestedSpans_laminarCut hspans).covers hspan
      have hcovers' := (nestedSpans_laminarCut hspans').covers hspan
      refine ⟨s.excerpt span.toInterval, snapshot_of_covers hcovers, ?_⟩
      rw [snapshot_of_covers hcovers', hsame.excerpt_eq hcovers' hcovers] }

/-! ### Deletions one after the other -/

/-- The lines that are left after deletions hold no line feed if none did. -/
lemma IsSplit.of_deleteRanges (h : s.IsSplit) (hdelete : ranges.foldlM deleteRange s = .ok s') :
    s'.IsSplit := by
  refine foldlM_invariant IsSplit ?_ h hdelete
  intro b i b' hb hstep
  obtain ⟨-, rfl⟩ := deleteRange_eq_ok_iff.mp hstep
  exact hb.without i

/-- A source that is written as the empty text is so after deletions. -/
lemma fileText_of_deleteRanges_of_empty (h : s.fileText = "")
    (hdelete : ranges.foldlM deleteRange s = .ok s') : s'.fileText = "" := by
  refine foldlM_invariant (fun b : Source => b.fileText = "") ?_ h hdelete
  intro b i b' hb hstep
  obtain ⟨hcovers, rfl⟩ := deleteRange_eq_ok_iff.mp hstep
  exact fileText_without_of_empty hb hcovers

end Source

/-! ### The file that is written -/

section Reread

variable {w : Workspace} {path text : String} {source s : Source} {ranges : List Interval}

/-- A source that has lost lines is written to its file. -/
lemma Workspace.exists_writeText_of_deleteRanges (htext : w.directory.read path = .ok text.toUTF8)
    (hdelete : ranges.foldlM Source.deleteRange (.ofFile text) = .ok s) :
    ∃ w', w.writeText path s.fileText = .ok w' ∧
      w'.directory.read path = .ok s.fileText.toUTF8 := by
  refine exists_writeText_of_readText (readText_of_read_toUTF8 htext) fun hempty => ?_
  have hfile : (Source.ofFile text).fileText = "" := by rw [Source.fileText_ofFile, hempty]
  exact Source.fileText_of_deleteRanges_of_empty hfile hdelete

/-- **Lines are deleted, written and read again.**  A source that is read from a file can be written
back after any deletions.  It is then read with the lines that are left, but for an empty one at the
end, and cut as these lines are.  Without a deletion the file has the bytes it had. -/
theorem exists_reread_of_deleteRanges (htext : w.directory.read path = .ok text.toUTF8)
    (hsource : w.readSource path = .ok source)
    (hdelete : ranges.foldlM Source.deleteRange source = .ok s) :
    ∃ w' reread, w.writeText path s.fileText = .ok w' ∧
      w'.directory.read path = .ok s.fileText.toUTF8 ∧
      w'.readSource path = .ok reread ∧ s.ReadsBack reread ∧
      (ranges = [] → w'.directory.read path = .ok text.toUTF8) := by
  have hofFile : Source.ofFile text = source :=
    Except.ok.inj ((Workspace.readSource_of_readText
      (Workspace.readText_of_read_toUTF8 htext)).symm.trans hsource)
  subst hofFile
  obtain ⟨w', hwrite, hread⟩ := Workspace.exists_writeText_of_deleteRanges htext hdelete
  have hreread := Workspace.readSource_of_readText (Workspace.readText_of_read_toUTF8 hread)
  have hsplit : s.IsSplit := (Source.isSplit_ofFile text).of_deleteRanges hdelete
  refine ⟨w', .ofFile s.fileText, hwrite, hread, hreread, hsplit.readsBack, ?_⟩
  rintro rfl
  obtain rfl : Source.ofFile text = s := Except.ok.inj hdelete
  rw [hread, Source.fileText_ofFile]

end Reread

namespace LedgerCommand

/-- Two deletions leave an empty line and a comment, which is where it was. -/
theorem exists_reread_of_two_deletions :
    let w := ofSourceText "int x;\n\n// a\nint y;"
    let source : Source := ⟨["int x;", "", "// a", "int y;"], false⟩
    let left : Source := ⟨["", "// a"], false⟩
    w.directory.read "m.c" = .ok "int x;\n\n// a\nint y;".toUTF8 ∧
      w.readSource "m.c" = .ok source ∧
      [⟨1, 1⟩, ⟨3, 3⟩].foldlM Source.deleteRange source = .ok left ∧
      ∃ w' reread, w.writeText "m.c" "\n// a" = .ok w' ∧
        w'.directory.read "m.c" = .ok "\n// a".toUTF8 ∧
        w'.readSource "m.c" = .ok reread ∧ reread.lines = left.lines ∧
        nestedSpans 1 0 reread.lines = .ok [⟨⟨2, 2⟩, Kind.comment⟩] := by
  intro w source left
  have htext : w.directory.read "m.c" = .ok "int x;\n\n// a\nint y;".toUTF8 :=
    read_ofSourceText _
  have hsource : w.readSource "m.c" = .ok source := by
    have hofFile : Source.ofFile "int x;\n\n// a\nint y;" = source := by decide +kernel
    rw [Workspace.readSource_of_readText (readText_ofSourceText _), hofFile]
  have hdelete : [⟨1, 1⟩, ⟨3, 3⟩].foldlM Source.deleteRange source = .ok left := by decide
  obtain ⟨w', reread, hwrite, hread, hreread, hback, -⟩ :=
    exists_reread_of_deleteRanges htext hsource hdelete
  have hleft : left.fileText = "\n// a" := by decide +kernel
  rw [hleft] at hwrite hread
  have hspans : nestedSpans 1 0 left.lines = .ok [⟨⟨2, 2⟩, Kind.comment⟩] := by decide +kernel
  exact ⟨htext, hsource, hdelete, w', reread, hwrite, hread, hreread,
    hback.lines_eq_iff.mpr (by decide), (hback.nestedSpans_eq 1 0).trans hspans⟩

/-- The source in a workspace is written after deletions, and read again. -/
lemma exists_reread_ofSourceText {text : String} {source s reread : Source}
    {ranges : List Interval} (hsource : Source.ofFile text = source)
    (hdelete : ranges.foldlM Source.deleteRange source = .ok s)
    (hreread : Source.ofFile s.fileText = reread) :
    (ofSourceText text).readSource "m.c" = .ok source ∧
      ∃ w', (ofSourceText text).writeText "m.c" s.fileText = .ok w' ∧
        w'.readSource "m.c" = .ok reread := by
  subst hsource hreread
  obtain ⟨w', hwrite, hread⟩ :=
    Workspace.exists_writeText_of_deleteRanges (read_ofSourceText text) hdelete
  exact ⟨Workspace.readSource_of_readText (readText_ofSourceText text), w', hwrite,
    Workspace.readSource_of_readText (Workspace.readText_of_read_toUTF8 hread)⟩

/-- The lines that are read again need not be those that are left: an empty last line is lost, and a
file has a line where none is left. -/
theorem not_always_reread_with_same_lines :
    (let w := ofSourceText "a\n\nb"
      ∃ source s w' reread, w.readSource "m.c" = .ok source ∧ source.deleteRange ⟨3, 3⟩ = .ok s ∧
        w.writeText "m.c" s.fileText = .ok w' ∧ w'.readSource "m.c" = .ok reread ∧
        s.lines = ["a", ""] ∧ reread.lines = ["a"]) ∧
    (let w := ofSourceText "x"
      ∃ source s w' reread, w.readSource "m.c" = .ok source ∧ source.deleteRange ⟨1, 1⟩ = .ok s ∧
        w.writeText "m.c" s.fileText = .ok w' ∧ w'.readSource "m.c" = .ok reread ∧
        s.lines = [] ∧ reread.lines = [""]) := by
  refine ⟨?_, ?_⟩
  · have hdelete : [⟨3, 3⟩].foldlM Source.deleteRange ⟨["a", "", "b"], false⟩ =
        .ok ⟨["a", ""], false⟩ := by decide
    obtain ⟨hsource, w', hwrite, hreread⟩ := @exists_reread_ofSourceText "a\n\nb" _ _
      ⟨["a"], true⟩ _ (by decide +kernel) hdelete (by decide +kernel)
    exact ⟨_, _, w', _, hsource, by decide, hwrite, hreread, rfl, rfl⟩
  · have hdelete : [⟨1, 1⟩].foldlM Source.deleteRange ⟨["x"], false⟩ = .ok ⟨[], false⟩ := by
      decide
    obtain ⟨hsource, w', hwrite, hreread⟩ := @exists_reread_ofSourceText "x" _ _
      ⟨[""], false⟩ _ (by decide +kernel) hdelete (by decide +kernel)
    exact ⟨_, _, w', _, hsource, by decide, hwrite, hreread, rfl, rfl⟩

end LedgerCommand

end SectionLedger
