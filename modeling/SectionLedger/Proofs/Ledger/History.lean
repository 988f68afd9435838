import Mathlib
import SectionLedger.Proofs.Ledger.Laminar

/-!
# The history of a section

A section that is on a shelf at the end of a run was stored by one step of it, and no later step
stored a section of the same interval (`IsLastInsertion`): a second one would clash with the first,
which is still there.  From then on the section has replayed the marks of all later steps on its
file, and nothing else happened to it (`Step.exists_isLastInsertion`).  So its verdict is determined
by the history of the run (`Step.verdict_eq_of_history`).
-/

namespace SectionLedger

namespace FileOperation

/-- The sections that an operation stores on the shelf of its file, behind those that it leaves
there. -/
def additions (file : FileId) (l : Ledger) (source : Source) (op : FileOperation) : List Section :=
  ((op.run file l source).1.shelf file).drop (op.kept source (l.shelf file)).length

/-- Behind the sections that an operation leaves on the shelf stand sections made of drafts. -/
lemma exists_additions_eq (file : FileId) (l : Ledger) (source : Source) (op : FileOperation) :
    ∃ stored : List Draft,
      (op.run file l source).1.shelf file =
        op.kept source (l.shelf file) ++ stored.map (l.desk file source).sectionOf ∧
      op.additions file l source = stored.map (l.desk file source).sectionOf := by
  obtain ⟨stored, -, hstore⟩ := Shelf.exists_store_fst_eq (l.desk file source)
    (op.kept source (l.shelf file)) (op.drafts (l.desk file source) (l.shelf file))
  have hshelf := op.shelf_run_self file l source
  rw [hstore] at hshelf
  exact ⟨stored, hshelf, by rw [additions, hshelf, List.drop_left]⟩

end FileOperation

namespace Step

/-- The marks that a step leaves on the sections of a file. -/
def marks (file : FileId) (step : Step) : List Mark :=
  match step.op with
  | .on f op => if f = file then op.marks else []
  | .register _ => []

/-- The sections that a step stores for a file. -/
def additions (file : FileId) (l : Ledger) (step : Step) : List Section :=
  match step.op with
  | .on f op => if f = file then op.additions f l step.source else []
  | .register _ => []

variable {file : FileId} {l : Ledger}

/-- After a step the shelf of a file holds sections that were there before and have replayed the
marks of the step, and behind them the sections that the step stores, which have no verdict. -/
lemma exists_shelf_run_eq (file : FileId) (l : Ledger) (step : Step) :
    ∃ stayed : Shelf, stayed.Sublist (l.shelf file) ∧
      (step.run l).shelf file =
        stayed.map (·.replay (step.marks file)) ++ step.additions file l ∧
      ∀ s ∈ step.additions file l, s.reset = s := by
  obtain ⟨op, source⟩ := step
  have hidle : ∃ stayed : Shelf, stayed.Sublist (l.shelf file) ∧
      l.shelf file = stayed.map (·.replay []) ++ [] ∧ ∀ s ∈ ([] : List Section), s.reset = s :=
    ⟨l.shelf file, List.Sublist.refl _, by simp, by simp⟩
  cases op with
  | register name => exact hidle
  | on f op =>
    by_cases hfile : f = file
    · subst hfile
      obtain ⟨stored, hshelf, hadditions⟩ := op.exists_additions_eq f l source
      refine ⟨(l.shelf f).filter (op.keeps source), List.filter_sublist, ?_, ?_⟩
      · simp only [run, Operation.run, marks, additions, if_pos, hadditions]
        exact hshelf
      · simp only [additions, if_pos, hadditions, List.forall_mem_map]
        exact fun d _ => rfl
    · have hshelf : (run l ⟨.on f op, source⟩).shelf file = l.shelf file := by
        rw [run, Operation.run, FileOperation.run_fst, Ledger.shelf_withShelf_other _ hfile]
      simpa only [hshelf, marks, additions, if_neg hfile] using hidle

/-- The last step of a run that stores a section of an interval for a file: the section stored, the
steps before, the step and the steps after. -/
structure IsLastInsertion (l : Ledger) (file : FileId) (s : Section) (before : List Step)
    (step : Step) (later : List Step) : Prop where
  stores : s ∈ step.additions file (runAll l before)
  last : ∀ mid step' rest, later = mid ++ step' :: rest →
    ∀ t ∈ step'.additions file (runAll l (before ++ step :: mid)), t.toInterval ≠ s.toInterval

/-- The last step that stores a section remains so if the next one stores none of its interval. -/
lemma IsLastInsertion.concat {s : Section} {before later : List Step} {step next : Step}
    (h : IsLastInsertion l file s before step later)
    (hnone : ∀ t ∈ next.additions file (runAll l (before ++ step :: later)),
      t.toInterval ≠ s.toInterval) :
    IsLastInsertion l file s before step (later ++ [next]) where
  stores := h.stores
  last mid step' rest hsplit := by
    rcases List.eq_nil_or_concat' rest with rfl | ⟨rest, final, rfl⟩
    · obtain ⟨rfl, rfl⟩ : later = mid ∧ next = step' := by simpa using hsplit
      exact hnone
    · have hassoc : mid ++ step' :: (rest ++ [final]) = (mid ++ step' :: rest) ++ [final] := by simp
      obtain ⟨hlater, -⟩ := List.append_inj' (hsplit.trans hassoc) rfl
      exact h.last mid step' rest hlater

/-- A section that is there at the end of a run was stored by one of its steps, without a verdict,
and has replayed the marks of all later steps. -/
lemma exists_isLastInsertion (kinds : Registry) (steps : List Step) (file : FileId) {s : Section}
    (hs : s ∈ (runAll (.ofKinds kinds) steps).shelf file) :
    ∃ before step later, steps = before ++ step :: later ∧
      IsLastInsertion (.ofKinds kinds) file s.reset before step later ∧
      s = s.reset.replay (later.flatMap (marks file)) := by
  induction steps using List.reverseRecOn generalizing s with
  | nil => exact absurd hs List.not_mem_nil
  | append_singleton steps step ih =>
    have hrun : runAll (.ofKinds kinds) (steps ++ [step]) =
        step.run (runAll (.ofKinds kinds) steps) := by
      rw [runAll, List.foldl_append]
      rfl
    have hlaminar := ((Ledger.Reachable.ofKinds kinds).runAll (steps ++ [step])).laminar file
    obtain ⟨stayed, hstayed, hshelf, hfresh⟩ :=
      exists_shelf_run_eq file (runAll (.ofKinds kinds) steps) step
    rw [hrun, hshelf] at hs hlaminar
    rcases List.mem_append.mp hs with hold | hnew
    · obtain ⟨s', hs', rfl⟩ := List.mem_map.mp hold
      obtain ⟨before, step', later, rfl, hlast, hreplay⟩ := ih (hstayed.subset hs')
      -- the section is still there when the step stores others, so it clashes with none of them
      have hnone : ∀ t ∈ step.additions file (runAll (.ofKinds kinds) (before ++ step' :: later)),
          t.toInterval ≠ s'.reset.toInterval := fun t ht heq => by
        have hpair := (List.pairwise_append.mp hlaminar.compatible).2.2 _ hold t ht
        rw [heq] at hpair
        exact hpair.1 (by simp)
      refine ⟨before, step', later ++ [step], by simp, ?_, ?_⟩
      · rw [Section.reset_replay]
        exact hlast.concat hnone
      · rw [Section.reset_replay, List.flatMap_append, Section.replay_append, ← hreplay]
        simp
    · refine ⟨steps, step, [], rfl, ⟨by rwa [hfresh s hnew], fun mid step' rest h => ?_⟩, ?_⟩
      · simp at h
      · exact (hfresh s hnew).symm

/-- **The verdict of a section is determined by the history of the run.**  After the last step that
stored it, and after the last reset since then, its messages are those about its lines, in order;
its status is that of the last of them, or else the first that was given to sections without one. -/
theorem verdict_eq_of_history (kinds : Registry) (steps : List Step) (file : FileId) (s : Section)
    (hs : s ∈ (runAll (.ofKinds kinds) steps).shelf file) :
    ∃ before step later, steps = before ++ step :: later ∧
      IsLastInsertion (.ofKinds kinds) file s.reset before step later ∧
      s.statusData = Mark.joined
        ((Mark.messages s.toInterval (Mark.recent (later.flatMap (marks file)))).map Prod.snd) ∧
      s.status = Mark.verdict? s.toInterval (Mark.recent (later.flatMap (marks file))) := by
  obtain ⟨before, step, later, hsplit, hlast, hreplay⟩ := exists_isLastInsertion kinds steps file hs
  have hverdict : s.reset.replay (later.flatMap (marks file)) = _ :=
    Section.replay_of_reset_eq s.reset (.inl rfl)
  rw [← hreplay] at hverdict
  exact ⟨before, step, later, hsplit, hlast, congrArg Section.statusData hverdict,
    congrArg Section.status hverdict⟩

/-- A procedure keeps the warning that came after the reset, and not the fault before it. -/
theorem verdict_of_procedure_after_reset :
    let steps : List Step := [
      ⟨.on 7 (.insert [⟨⟨1, 3⟩, Kind.procedure⟩]), ⟨["f() \x7b", "x;", "\x7d"], false⟩⟩,
      ⟨.on 7 (.append .doesNotCompile 2 "2: fault"), ⟨[], false⟩⟩,
      ⟨.on 7 .reset, ⟨[], false⟩⟩,
      ⟨.on 7 (.append .compiledWithWarnings 3 "3: unused"), ⟨[], false⟩⟩,
      ⟨.on 7 (.settle .compiledWithoutWarnings), ⟨[], false⟩⟩]
    let s : Section :=
      ⟨⟨⟨1, 3⟩, Kind.procedure⟩, 7, some .compiledWithWarnings, "3: unused,", "f() \x7b\nx;\n\x7d",
        "", ""⟩
    s ∈ (runAll (.ofKinds .builtin) steps).shelf 7 ∧
      ∃ before step later, steps = before ++ step :: later ∧
        IsLastInsertion (.ofKinds .builtin) 7 s.reset before step later ∧
        s.statusData = Mark.joined
          ((Mark.messages s.toInterval (Mark.recent (later.flatMap (marks 7)))).map Prod.snd) ∧
        s.status = Mark.verdict? s.toInterval (Mark.recent (later.flatMap (marks 7))) := by
  intro steps s
  have hs : s ∈ (runAll (.ofKinds .builtin) steps).shelf 7 := by decide +kernel
  exact ⟨hs, verdict_eq_of_history .builtin steps 7 s hs⟩

end Step

end SectionLedger
