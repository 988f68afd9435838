import Mathlib
import SectionLedger.Ledger.Basic

/-!
# Verdicts

Whatever an operation does to the verdicts on a file is a list of *marks*: all verdicts are taken
back, a message is attached to the sections that contain a line, or the sections without a status
get one.  A section replays the marks one by one (`Section.replay`), and its verdict can be read off
the list (`Section.replay_of_reset_eq`): only the marks after the last reset count, the messages are
those about a line of the section, and the status is that of the last message or else of the first
settlement.

One compilation resets a file, attaches the attributed messages and settles the rest.  So a section
ends with exactly the messages about its lines (`Section.judged`), whatever it held before, and the
counts of the summary add up (`Ledger.apply_judges_sections`).
-/

namespace SectionLedger

/-- What can happen to the verdicts on a file. -/
inductive Mark where
  /-- Every verdict is taken back. -/
  | reset
  /-- A message is attached to the sections that contain a line. -/
  | append (status : Status) (line : ℕ) (text : String)
  /-- The sections without a status get one. -/
  | settle (status : Status)
  deriving DecidableEq, Repr

namespace Mark

/-- The status and the text that a mark attaches to a section of an interval. -/
def message? (i : Interval) : Mark → Option (Status × String)
  | append status line text => if i.containsLine line then some (status, text) else none
  | _ => none

/-- The status that a mark gives to the sections without one. -/
def settled? : Mark → Option Status
  | settle status => some status
  | _ => none

/-- The marks after the last reset. -/
def recent (marks : List Mark) : List Mark := marks.rtakeWhile (· ≠ reset)

/-- The statuses and texts that marks attach to a section of an interval, in order. -/
def messages (i : Interval) (marks : List Mark) : List (Status × String) :=
  marks.filterMap (message? i)

/-- The texts of messages, each followed by a comma. -/
def joined (texts : List String) : String := String.join (texts.map (· ++ ","))

/-- The status of the last message, or else the first status given to the sections without one. -/
def verdict? (i : Interval) (marks : List Mark) : Option Status :=
  ((messages i marks).getLast?.map Prod.fst).or (marks.findSome? settled?)

/-- Nothing is joined from no texts. -/
@[simp] lemma joined_nil : joined [] = "" := rfl

/-- The first text comes first, with its comma. -/
lemma joined_cons (text : String) (texts : List String) :
    joined (text :: texts) = text ++ "," ++ joined texts := by
  rw [joined, List.map_cons, String.join_cons, joined]

/-- A message about a line of the interval is attached. -/
lemma messages_cons_of_containsLine {i : Interval} {line : ℕ} (h : i.containsLine line = true)
    (status : Status) (text : String) (marks : List Mark) :
    messages i (append status line text :: marks) = (status, text) :: messages i marks :=
  List.filterMap_cons_some (if_pos h)

/-- A message about another line is not. -/
lemma messages_cons_of_not_containsLine {i : Interval} {line : ℕ} (h : ¬ i.containsLine line = true)
    (status : Status) (text : String) (marks : List Mark) :
    messages i (append status line text :: marks) = messages i marks :=
  List.filterMap_cons_none (if_neg h)

/-- After a reset no mark counts, and any other mark counts with the recent ones before it. -/
lemma recent_concat (marks : List Mark) (m : Mark) :
    recent (marks ++ [m]) = if m = reset then [] else recent marks ++ [m] := by
  rw [recent, List.rtakeWhile_concat]
  by_cases h : m = reset <;> simp [h, recent]

end Mark

namespace Section

/-- The section after a mark on its file. -/
def mark (s : Section) : Mark → Section
  | .reset => s.reset
  | .append status line text => if s.containsLine line then s.annotate status text else s
  | .settle status => s.settle status

/-- The section after some marks on its file. -/
def replay (s : Section) (marks : List Mark) : Section := marks.foldl mark s

/-- No marks leave a section as it is. -/
@[simp] lemma replay_nil (s : Section) : s.replay [] = s := rfl

/-- The first mark comes first. -/
lemma replay_cons (s : Section) (m : Mark) (marks : List Mark) :
    s.replay (m :: marks) = (s.mark m).replay marks := rfl

/-- Marks are replayed one list after the other. -/
lemma replay_append (s : Section) (marks marks' : List Mark) :
    s.replay (marks ++ marks') = (s.replay marks).replay marks' := List.foldl_append

/-- A mark changes nothing but the verdict. -/
lemma reset_mark (s : Section) (m : Mark) : (s.mark m).reset = s.reset := by
  cases m with
  | reset => rfl
  | append status line text =>
    rw [mark]
    split <;> rfl
  | settle status => rfl

/-- Marks change nothing but the verdict. -/
@[simp] lemma reset_replay (s : Section) (marks : List Mark) :
    (s.replay marks).reset = s.reset := by
  induction marks generalizing s with
  | nil => rfl
  | cons m marks ih => rw [replay_cons, ih, reset_mark]

/-- Marks leave the span of a section as it is. -/
@[simp] lemma replay_toSpan (s : Section) (marks : List Mark) :
    (s.replay marks).toSpan = s.toSpan := by
  rw [← reset_toSpan, reset_replay, reset_toSpan]

/-- Marks leave the file of a section as it is. -/
@[simp] lemma replay_file (s : Section) (marks : List Mark) : (s.replay marks).file = s.file := by
  have hreset : (s.replay marks).reset.file = s.reset.file := by rw [reset_replay]
  exact hreset

/-- The section with another verdict. -/
def withVerdict (s : Section) (status : Option Status) (data : String) : Section :=
  { s with status, statusData := data }

/-- Marks without a reset add their messages; the status is that of the last of them, or else the
one there was, or else the first that is given. -/
lemma replay_of_reset_notMem (s : Section) {marks : List Mark} (h : Mark.reset ∉ marks) :
    s.replay marks =
      s.withVerdict
        ((((Mark.messages s.toInterval marks).getLast?.map Prod.fst).or s.status).or
          (marks.findSome? Mark.settled?))
        (s.statusData ++ Mark.joined ((Mark.messages s.toInterval marks).map Prod.snd)) := by
  induction marks generalizing s with
  | nil =>
    have hdata : s.statusData ++ "" = s.statusData := String.append_empty
    have hstatus : s.status.or none = s.status := Option.or_none
    rw [Mark.messages, List.filterMap_nil, List.map_nil, Mark.joined_nil, hdata]
    exact congrArg (s.withVerdict · s.statusData) hstatus.symm
  | cons m marks ih =>
    have hrest : Mark.reset ∉ marks := fun hmem => h (List.mem_cons_of_mem m hmem)
    rw [replay_cons, ih _ hrest]
    cases m with
    | reset => exact absurd List.mem_cons_self h
    | append status line text =>
      by_cases hline : s.containsLine line = true
      · have hmark : s.mark (.append status line text) = s.annotate status text := if_pos hline
        rw [hmark, Mark.messages_cons_of_containsLine hline, List.getLast?_cons, List.map_cons,
          Mark.joined_cons]
        refine congrArg₂ s.withVerdict ?_ ?_
        · have hlast : ∀ last : Option (Status × String),
              (last.map Prod.fst).or (some status) =
                ((some (last.getD (status, text))).map Prod.fst).or s.status := by
            rintro (_ | _) <;> rfl
          exact congrArg (Option.or · (marks.findSome? Mark.settled?)) (hlast _)
        · simp [annotate, String.append_assoc]
      · have hmark : s.mark (.append status line text) = s := if_neg hline
        rw [hmark, Mark.messages_cons_of_not_containsLine hline]
        rfl
    | settle status =>
      -- the settlement only counts where neither a message nor a status came before it
      have hor : ∀ a b c : Option Status,
          (a.or (b.or (some status))).or c = (a.or b).or (some status) := by
        rintro (_ | _) (_ | _) _ <;> rfl
      have hfirst : (Mark.settle status :: marks).findSome? Mark.settled? = some status := rfl
      rw [hfirst]
      exact congrArg₂ s.withVerdict (hor _ s.status _) rfl

/-- A section without a verdict, or after a reset, ends with the messages that the recent marks
attach to it, and with the status of the last of them or else the first that they give. -/
lemma replay_of_reset_eq (s : Section) {marks : List Mark}
    (h : s.reset = s ∨ Mark.reset ∈ marks) :
    s.replay marks =
      s.withVerdict (Mark.verdict? s.toInterval (Mark.recent marks))
        (Mark.joined ((Mark.messages s.toInterval (Mark.recent marks)).map Prod.snd)) := by
  have hrecent : s.replay marks = s.reset.replay (Mark.recent marks) := by
    induction marks using List.reverseRecOn with
    | nil => exact (h.resolve_right List.not_mem_nil).symm
    | append_singleton marks m ih =>
      rw [replay_append, Mark.recent_concat]
      by_cases hm : m = Mark.reset
      · subst hm
        rw [if_pos rfl]
        exact reset_replay s marks
      · have h' : s.reset = s ∨ Mark.reset ∈ marks := by
          simpa [Ne.symm hm] using h
        rw [if_neg hm, ih h', replay_append]
  have hnone : Mark.reset ∉ Mark.recent marks := fun hmem => by
    simpa using List.mem_rtakeWhile_imp hmem
  have hdata : ∀ data : String, s.reset.statusData ++ data = data := fun _ => String.empty_append
  have hstatus : ∀ status : Option Status, status.or s.reset.status = status :=
    fun _ => Option.or_none
  rw [hrecent, replay_of_reset_notMem s.reset hnone, hdata, hstatus]
  rfl

end Section

/-! ### One compilation -/

namespace Mark

/-- The marks of messages that a compilation with this status leaves. -/
def ofMessages (status : Status) (diagnostics : List Diagnostic) : List Mark :=
  diagnostics.map fun d => append status d.line d.text

/-- The marks of one compilation: a reset, the attributed messages, and a status for the rest. -/
def ofCompilation (status : Status) (diagnostics : List Diagnostic) : List Mark :=
  reset :: (ofMessages status (diagnostics.filter Diagnostic.isAttributed) ++
    [settle status.residual])

/-- No message resets. -/
lemma reset_notMem_ofMessages (status : Status) (diagnostics : List Diagnostic) :
    reset ∉ ofMessages status diagnostics := by
  simp [ofMessages]

/-- No message settles. -/
lemma findSome?_ofMessages (status : Status) (diagnostics : List Diagnostic) :
    (ofMessages status diagnostics).findSome? settled? = none := by
  simp [ofMessages, settled?]

/-- The messages about a line of an interval are attached. -/
lemma messages_ofMessages (i : Interval) (status : Status) (diagnostics : List Diagnostic) :
    messages i (ofMessages status diagnostics) =
      (diagnostics.filter fun d => i.containsLine d.line).map fun d => (status, d.text) := by
  induction diagnostics with
  | nil => rfl
  | cons d diagnostics ih =>
    rw [ofMessages, List.map_cons, ← ofMessages]
    by_cases hline : i.containsLine d.line = true
    · rw [messages_cons_of_containsLine hline, ih, List.filter_cons, if_pos hline, List.map_cons]
    · rw [messages_cons_of_not_containsLine hline, ih, List.filter_cons, if_neg hline]

end Mark

namespace Section

/-- The attributed messages about a line of the section, in order. -/
def messages (s : Section) (diagnostics : List Diagnostic) : List Diagnostic :=
  diagnostics.filter fun d => 0 < d.line ∧ s.first ≤ d.line ∧ d.line ≤ s.last

/-- The section after a compilation: with the messages about its lines, or else with the residual
status. -/
def judged (s : Section) (status : Status) (diagnostics : List Diagnostic) : Section :=
  if s.messages diagnostics = [] then s.withVerdict (some status.residual) ""
  else s.withVerdict (some status) (Mark.joined ((s.messages diagnostics).map Diagnostic.text))

/-- The messages about a section are the attributed ones whose line it contains. -/
lemma messages_eq_filter (s : Section) (diagnostics : List Diagnostic) :
    s.messages diagnostics =
      (diagnostics.filter Diagnostic.isAttributed).filter fun d => s.containsLine d.line := by
  rw [List.filter_filter, messages]
  refine List.filter_congr fun d _ => ?_
  simp [Diagnostic.isAttributed, Interval.containsLine, Bool.and_comm]

/-- A compilation changes nothing but the verdict. -/
lemma reset_judged (s : Section) (status : Status) (diagnostics : List Diagnostic) :
    (s.judged status diagnostics).reset = s.reset := by
  rw [judged]
  split <;> rfl

/-- After a reset, some messages leave the section with those about its lines, and with a status
if there are any. -/
lemma replay_ofMessages (s : Section) (status : Status) (diagnostics : List Diagnostic) :
    s.reset.replay (Mark.ofMessages status (diagnostics.filter Diagnostic.isAttributed)) =
      s.withVerdict (if s.messages diagnostics = [] then none else some status)
        (Mark.joined ((s.messages diagnostics).map Diagnostic.text)) := by
  have hmessages : Mark.messages s.reset.toInterval
      (Mark.ofMessages status (diagnostics.filter Diagnostic.isAttributed)) =
        (s.messages diagnostics).map fun d => (status, d.text) := by
    rw [Mark.messages_ofMessages, messages_eq_filter]
    rfl
  have hstatus : ∀ ds : List Diagnostic,
      (((((ds.map fun d => (status, d.text)).getLast?.map Prod.fst).or none).or none) :
        Option Status) = if ds = [] then none else some status := by
    intro ds
    rcases List.eq_nil_or_concat ds with rfl | ⟨init, last, rfl⟩ <;> simp
  rw [replay_of_reset_notMem _ (Mark.reset_notMem_ofMessages _ _), hmessages,
    Mark.findSome?_ofMessages, List.map_map]
  exact congrArg₂ s.withVerdict (hstatus _) String.empty_append

/-- The marks of a compilation leave a section as the compilation judges it. -/
lemma replay_ofCompilation (s : Section) (status : Status) (diagnostics : List Diagnostic) :
    s.replay (Mark.ofCompilation status diagnostics) = s.judged status diagnostics := by
  have hfirst : s.replay (Mark.ofCompilation status diagnostics) =
      (s.reset.replay (Mark.ofMessages status (diagnostics.filter Diagnostic.isAttributed))).settle
        status.residual := by
    rw [Mark.ofCompilation, replay_cons, replay_append]
    rfl
  rw [hfirst, replay_ofMessages, judged]
  by_cases hnone : s.messages diagnostics = []
  · rw [if_pos hnone, if_pos hnone, hnone]
    rfl
  · rw [if_neg hnone, if_neg hnone]
    rfl

end Section

namespace Shelf

variable (shelf : Shelf) (status : Status) (diagnostics : List Diagnostic)

/-- Attaching messages is replaying their marks in every section. -/
lemma annotateAll_fst :
    (shelf.annotateAll status diagnostics).1 =
      shelf.map fun s => s.replay (Mark.ofMessages status diagnostics) := by
  induction diagnostics generalizing shelf with
  | nil => simp [annotateAll, Mark.ofMessages]
  | cons d diagnostics ih =>
    rw [annotateAll, ih, annotate, List.map_map]
    rfl

/-- A message leaves the sections that contain a line. -/
lemma reach_annotate (line line' : ℕ) (text : String) :
    (shelf.annotate status line text).reach line' = shelf.reach line' := by
  rw [reach, annotate, List.countP_map]
  refine List.countP_congr fun s _ => ?_
  rw [Function.comp_apply]
  split <;> rfl

/-- The pairs of a message and a section with its line, counted message by message. -/
lemma countP_product_eq_sum :
    (diagnostics ×ˢ shelf).countP (fun p => p.2.containsLine p.1.line) =
      (diagnostics.map fun d => shelf.reach d.line).sum := by
  induction diagnostics with
  | nil => rfl
  | cons d diagnostics ih =>
    rw [List.product_cons, List.countP_append, ih, List.countP_map, List.map_cons, List.sum_cons]
    rfl

/-- Messages are attached as many times as there are pairs of a message and a section with its
line. -/
lemma annotateAll_snd :
    (shelf.annotateAll status diagnostics).2 =
      (diagnostics ×ˢ shelf).countP fun p => p.2.containsLine p.1.line := by
  induction diagnostics generalizing shelf with
  | nil => rfl
  | cons d diagnostics ih =>
    rw [countP_product_eq_sum, List.map_cons, List.sum_cons, annotateAll, ih,
      countP_product_eq_sum]
    simp only [reach_annotate]

/-- A compilation judges every section. -/
lemma apply_fst :
    (shelf.apply status diagnostics).1 = shelf.map fun s => s.judged status diagnostics := by
  rw [apply, annotateAll_fst, settle, reset, List.map_map, List.map_map]
  refine List.map_congr_left fun s _ => ?_
  rw [← Section.replay_ofCompilation, Mark.ofCompilation, Section.replay_cons,
    Section.replay_append]
  rfl

/-- The pairs of a message and a section with its line do not depend on the verdicts. -/
lemma countP_product_reset :
    (diagnostics ×ˢ shelf.reset).countP (fun p => p.2.containsLine p.1.line) =
      (diagnostics ×ˢ shelf).countP fun p => p.2.containsLine p.1.line := by
  have hreach : ∀ line, shelf.reset.reach line = shelf.reach line := fun line => by
    rw [reach, reset, List.countP_map]
    rfl
  rw [countP_product_eq_sum, countP_product_eq_sum]
  simp only [hreach]

/-- What a compilation does to a shelf, counted: the attributed messages, the pairs of one of them
and a section with its line, and the sections without any. -/
lemma apply_snd :
    (shelf.apply status diagnostics).2 =
      { status
        residual := status.residual
        applied := diagnostics.countP Diagnostic.isAttributed
        updates := (diagnostics.filter Diagnostic.isAttributed ×ˢ shelf).countP
          fun p => p.2.containsLine p.1.line
        settled := shelf.countP fun s => s.messages diagnostics = [] } := by
  have hpending : (shelf.reset.annotateAll status
      (diagnostics.filter Diagnostic.isAttributed)).1.pending =
        shelf.countP fun s => s.messages diagnostics = [] := by
    rw [annotateAll_fst, pending, reset, List.map_map, List.countP_map]
    refine List.countP_congr fun s _ => ?_
    rw [Function.comp_apply, Function.comp_apply, Section.replay_ofMessages]
    by_cases hnone : s.messages diagnostics = [] <;> simp [hnone, Section.withVerdict]
  rw [apply, hpending, annotateAll_snd, countP_product_reset, ← List.countP_eq_length_filter]

/-- What a compilation does to a shelf does not depend on the verdicts. -/
lemma apply_congr {shelf shelf' : Shelf} (h : shelf'.map Section.reset = shelf.map Section.reset) :
    shelf'.apply status diagnostics = shelf.apply status diagnostics := by
  rw [apply, apply, reset, reset, h]

end Shelf

/-- **A compilation judges every section of the file.**  A section with attributed messages about
its lines gets them in order and the status of the compilation, any other the residual status;
nothing else changes.  The summary counts the attributed messages, their pairs with the sections
that contain their lines, and the sections without a message.  What was there before does not
matter, so applying the same compilation again changes nothing. -/
theorem Ledger.apply_judges_sections (l : Ledger) (file : FileId) (status : Status)
    (diagnostics : List Diagnostic) :
    (l.apply file status diagnostics).1.shelf file =
      (l.shelf file).map (fun s => s.judged status diagnostics) ∧
    (l.apply file status diagnostics).1.kinds = l.kinds ∧
    (∀ other, other ≠ file →
      (l.apply file status diagnostics).1.shelf other = l.shelf other) ∧
    (l.apply file status diagnostics).2.applied = diagnostics.countP Diagnostic.isAttributed ∧
    (l.apply file status diagnostics).2.updates =
      (diagnostics.filter Diagnostic.isAttributed ×ˢ l.shelf file).countP
        (fun p => p.2.containsLine p.1.line) ∧
    (l.apply file status diagnostics).2.settled +
      (l.shelf file).countP (fun s => s.messages diagnostics ≠ []) = (l.shelf file).length ∧
    (∀ l' : Ledger, (l'.shelf file).map Section.reset = (l.shelf file).map Section.reset →
      (l'.apply file status diagnostics).1.shelf file =
        (l.apply file status diagnostics).1.shelf file ∧
      (l'.apply file status diagnostics).2 = (l.apply file status diagnostics).2) ∧
    (l.apply file status diagnostics).1.apply file status diagnostics =
      l.apply file status diagnostics := by
  have hjudged : ((l.shelf file).apply status diagnostics).1.map Section.reset =
      (l.shelf file).map Section.reset := by
    rw [Shelf.apply_fst, List.map_map]
    exact List.map_congr_left fun s _ => s.reset_judged status diagnostics
  refine ⟨?_, rfl, fun other hne => shelf_withShelf_other l hne.symm _, ?_, ?_, ?_,
    fun l' h => ?_, ?_⟩
  · rw [apply, shelf_withShelf_self, Shelf.apply_fst]
  · rw [apply, Shelf.apply_snd]
  · rw [apply, Shelf.apply_snd]
  · rw [apply, Shelf.apply_snd, List.length_eq_countP_add_countP
      (fun s : Section => decide (s.messages diagnostics = []))]
    simp
  · simp only [apply, shelf_withShelf_self, Shelf.apply_congr status diagnostics h, and_self]
  · refine Prod.ext (ext_shelf rfl fun other => ?_) ?_
    · by_cases hfile : file = other
      · subst hfile
        simp only [apply, shelf_withShelf_self, Shelf.apply_congr status diagnostics hjudged]
      · exact shelf_withShelf_other _ hfile _
    · simp only [apply, shelf_withShelf_self, Shelf.apply_congr status diagnostics hjudged]

end SectionLedger
