import Mathlib
import SectionLedger.Proofs.Ledger.Effect

/-!
# Files are independent

Several clients may take turns on one ledger.  A *call* is an operation on a file, with the source
that it is given; a *bench* is what calls work on, the ledger and the source of each file.

Two benches *agree* on a file when they have the same registry, the same shelf of the file and the
same source of it (`Bench.AgreeOn`).  A call cannot tell benches apart that agree on its file
(`Bench.AgreeOn.call`), and leaves a bench that agrees with the old one on every other file
(`Bench.agreeOn_call_of_ne`).  So what a run of calls does to a file, and what its calls on the file
give back, is what the calls on that file do alone (`Bench.AgreeOn.transcript_filter`,
`Bench.AgreeOn.callAll`), and an interleaving of two runs on different files is both runs.
-/

namespace SectionLedger

/-! ### Interleavings -/

/-- A list is made by taking turns between two lists, each in its order. -/
inductive Interleaves {α : Type} : List α → List α → List α → Prop
  | nil : Interleaves [] [] []
  | left (a : α) {as bs cs : List α} (h : Interleaves as bs cs) : Interleaves (a :: as) bs (a :: cs)
  | right (b : α) {as bs cs : List α} (h : Interleaves as bs cs) :
      Interleaves as (b :: bs) (b :: cs)

namespace Interleaves

variable {α : Type} {as bs cs : List α}

/-- The two lists can change their places. -/
lemma symm (h : Interleaves as bs cs) : Interleaves bs as cs := by
  induction h with
  | nil => exact nil
  | left a _ ih => exact right a ih
  | right b _ ih => exact left b ih

/-- Whatever tells the members of the two lists apart finds the first one again. -/
lemma filter_eq_left (h : Interleaves as bs cs) {p : α → Bool} (has : ∀ a ∈ as, p a = true)
    (hbs : ∀ b ∈ bs, p b = false) : cs.filter p = as := by
  induction h with
  | nil => rfl
  | left a _ ih =>
    obtain ⟨ha, has⟩ := List.forall_mem_cons.mp has
    rw [List.filter_cons, if_pos ha, ih has hbs]
  | right b _ ih =>
    obtain ⟨hb, hbs⟩ := List.forall_mem_cons.mp hbs
    rw [List.filter_cons, if_neg (by simp [hb]), ih has hbs]

/-- Every member is one of the two lists. -/
lemma mem_or_mem (h : Interleaves as bs cs) {c : α} (hc : c ∈ cs) : c ∈ as ∨ c ∈ bs := by
  induction h with
  | nil => exact .inl hc
  | left a _ ih =>
    rcases List.mem_cons.mp hc with rfl | hc
    · exact .inl List.mem_cons_self
    · exact (ih hc).imp_left (List.mem_cons_of_mem a)
  | right b _ ih =>
    rcases List.mem_cons.mp hc with rfl | hc
    · exact .inr List.mem_cons_self
    · exact (ih hc).imp_right (List.mem_cons_of_mem b)

end Interleaves

/-! ### One operation reads its own file only -/

namespace FileOperation

variable {file : FileId} {l l' : Ledger}

/-- The reply of an operation, and the source that it leaves, depend on the registry and on the
shelf of its file only. -/
lemma run_snd_congr (hkinds : l.kinds = l'.kinds) (hshelf : l.shelf file = l'.shelf file)
    (source : Source) (op : FileOperation) :
    (op.run file l source).2 = (op.run file l' source).2 := by
  have hdesk : l.desk file source = l'.desk file source := by rw [Ledger.desk, Ledger.desk, hkinds]
  cases op with
  | insert spans => simp only [run, Ledger.insert, hshelf, hdesk]
  | insertAtomic spans =>
    simp only [run, Ledger.insertAtomic, hshelf, hdesk]
    split <;> rfl
  | create draft =>
    simp only [run, Ledger.create, hshelf, hdesk]
    split <;> rfl
  | sections => simp only [run, hshelf]
  | decorate => simp only [run, hshelf]
  | clear => rfl
  | delete i => simp only [run, Ledger.delete, hshelf]
  | remove i =>
    simp only [run, Ledger.remove, hshelf]
    split
    · rfl
    · split <;> rfl
  | reparse =>
    have hclear : (l.clear file).desk file source = (l'.clear file).desk file source := hdesk
    simp only [run, Ledger.reparse]
    split
    · rfl
    · simp only [Ledger.insert, Ledger.clear, Ledger.shelf_withShelf_self]
      rw [Ledger.clear, Ledger.clear] at hclear
      rw [hclear]
  | settle status => simp only [run, Ledger.settle, hshelf]
  | reset => rfl
  | append status line text => simp only [run, Ledger.append, hshelf]
  | apply status diagnostics => simp only [run, Ledger.apply, hshelf]

/-- The shelf that an operation leaves for its file depends on the registry and on that shelf
only. -/
lemma shelf_run_congr (hkinds : l.kinds = l'.kinds) (hshelf : l.shelf file = l'.shelf file)
    (source : Source) (op : FileOperation) :
    (op.run file l source).1.shelf file = (op.run file l' source).1.shelf file := by
  rw [shelf_run_self, shelf_run_self, Ledger.desk, Ledger.desk, hkinds, hshelf]

end FileOperation

/-! ### Benches -/

/-- An operation on a file with the source that it is given: one of its own, or else the one that
the last call on the file has left. -/
structure Call where
  file : FileId
  source? : Option Source
  op : FileOperation

/-- What calls work on: a ledger, and for each file the source that the last call has left. -/
structure Bench where
  ledger : Ledger
  sources : FileId → Source

namespace Bench

/-- What a call gives back: its reply, and the source as it leaves it. -/
abbrev Answer := Except Fault Reply × Source

/-- The bench after a call, and what the call gives back. -/
def call (b : Bench) (c : Call) : Bench × Answer :=
  let after := c.op.run c.file b.ledger (c.source?.getD (b.sources c.file))
  (⟨after.1, Function.update b.sources c.file after.2.1⟩, after.2.2, after.2.1)

/-- The bench after some calls. -/
def callAll (b : Bench) (calls : List Call) : Bench := calls.foldl (fun b c => (b.call c).1) b

/-- Some calls, each with what it gives back. -/
def transcript (b : Bench) : List Call → List (Call × Answer)
  | [] => []
  | c :: calls => (c, (b.call c).2) :: (b.call c).1.transcript calls

/-- Two benches with the same registry, and with the same shelf and source of a file. -/
structure AgreeOn (file : FileId) (a b : Bench) : Prop where
  kinds : a.ledger.kinds = b.ledger.kinds
  shelf : a.ledger.shelf file = b.ledger.shelf file
  source : a.sources file = b.sources file

variable {a b : Bench} {file : FileId} {c : Call} {calls : List Call}

/-- A call leaves the registry as it is. -/
lemma kinds_call (b : Bench) (c : Call) : (b.call c).1.ledger.kinds = b.ledger.kinds := by
  rw [call, FileOperation.run_fst]
  rfl

/-- Calls leave the registry as it is. -/
lemma kinds_callAll (b : Bench) (calls : List Call) :
    (b.callAll calls).ledger.kinds = b.ledger.kinds := by
  induction calls generalizing b with
  | nil => rfl
  | cons c calls ih => exact (ih (b.call c).1).trans (kinds_call b c)

/-- A call leaves every other file as it is. -/
lemma agreeOn_call_of_ne (b : Bench) (h : c.file ≠ file) : AgreeOn file (b.call c).1 b where
  kinds := kinds_call b c
  shelf := by
    rw [call, FileOperation.run_fst]
    exact Ledger.shelf_withShelf_other _ h _
  source := Function.update_of_ne h.symm _ _

namespace AgreeOn

/-- A bench agrees with itself. -/
lemma refl (file : FileId) (b : Bench) : AgreeOn file b b := ⟨rfl, rfl, rfl⟩

/-- Agreement is transitive. -/
lemma trans {c : Bench} (h : AgreeOn file a b) (h' : AgreeOn file b c) : AgreeOn file a c :=
  ⟨h.kinds.trans h'.kinds, h.shelf.trans h'.shelf, h.source.trans h'.source⟩

/-- A call gives back the same on benches that agree on its file, and they agree afterwards. -/
lemma call (h : AgreeOn c.file a b) :
    (a.call c).2 = (b.call c).2 ∧ AgreeOn c.file (a.call c).1 (b.call c).1 := by
  have hanswer := FileOperation.run_snd_congr h.kinds h.shelf
    (c.source?.getD (a.sources c.file)) c.op
  have hshelf := FileOperation.shelf_run_congr h.kinds h.shelf
    (c.source?.getD (a.sources c.file)) c.op
  have hsource : c.source?.getD (b.sources c.file) = c.source?.getD (a.sources c.file) := by
    rw [h.source]
  refine ⟨?_, ?_, ?_, ?_⟩
  · simp only [Bench.call, hsource, hanswer]
  · rw [kinds_call, kinds_call, h.kinds]
  · simpa only [Bench.call, hsource] using hshelf
  · simp only [Bench.call, hsource, hanswer, Function.update_self]

/-- After a run of calls a bench agrees on a file with one that only had the calls on that file. -/
lemma callAll (h : AgreeOn file a b) (calls : List Call) :
    AgreeOn file (a.callAll calls) (b.callAll (calls.filter (·.file = file))) := by
  induction calls generalizing a b with
  | nil => exact h
  | cons c calls ih =>
    rw [List.filter_cons]
    split
    · next hfile =>
      have hfile : c.file = file := by simpa using hfile
      subst hfile
      exact ih h.call.2
    · next hfile =>
      exact ih ((a.agreeOn_call_of_ne (by simpa using hfile)).trans h)

/-- The calls on a file give back what they would give back without the others. -/
lemma transcript_filter (h : AgreeOn file a b) (calls : List Call) :
    (a.transcript calls).filter (·.1.file = file) =
      b.transcript (calls.filter (·.file = file)) := by
  induction calls generalizing a b with
  | nil => rfl
  | cons c calls ih =>
    rw [transcript, List.filter_cons, List.filter_cons]
    by_cases hfile : c.file = file
    · subst hfile
      rw [if_pos (by simp), if_pos (by simp), transcript, h.call.1, ih h.call.2]
    · rw [if_neg (by simpa using hfile), if_neg (by simpa using hfile)]
      exact ih ((a.agreeOn_call_of_ne hfile).trans h)

end AgreeOn

/-- Calls that are not on a file leave it as it is. -/
lemma agreeOn_callAll_of_forall_ne (b : Bench) (h : ∀ c ∈ calls, c.file ≠ file) :
    AgreeOn file (b.callAll calls) b := by
  have hnone : calls.filter (·.file = file) = [] :=
    List.filter_eq_nil_iff.mpr fun c hc => by simpa using h c hc
  have hagree := (AgreeOn.refl file b).callAll calls
  rwa [hnone] at hagree

end Bench

/-! ### The files of a ledger -/

namespace ShelfTable

/-- Replacing the shelf of a file leaves the rows of the others. -/
lemma filter_replace {file : FileId} (shelf : Shelf) {p : FileId → Bool} (h : p file = false)
    (rows : List (FileId × Shelf)) :
    (replace file shelf rows).filter (fun row => p row.1) = rows.filter fun row => p row.1 := by
  have hplace : ∀ rows : List (FileId × Shelf),
      (place file shelf rows).filter (fun row => p row.1) = rows.filter fun row => p row.1 := by
    intro rows
    rw [place]
    split
    · rfl
    · rw [List.filter_cons, if_neg (by simp [h])]
  induction rows with
  | nil => exact hplace []
  | cons row rows ih =>
    rw [replace]
    split
    · exact hplace (row :: rows)
    · split
      · next heq =>
        rw [hplace, List.filter_cons, if_neg (by simp [← heq, h])]
      · rw [List.filter_cons, List.filter_cons, ih]

end ShelfTable

namespace Ledger

/-- Replacing the shelf of a file leaves the other files that have sections. -/
lemma filter_files_withShelf (l : Ledger) (file : FileId) (shelf : Shelf) {p : FileId → Bool}
    (h : p file = false) : (l.withShelf file shelf).files.filter p = l.files.filter p := by
  have hrows := ShelfTable.filter_replace shelf h l.shelves.rows
  rw [files, files, ShelfTable.files, ShelfTable.files, List.filter_map, List.filter_map]
  exact congrArg _ hrows

end Ledger

namespace Bench

/-- Calls leave the files with sections that none of them is on. -/
lemma filter_files_callAll (b : Bench) {calls : List Call} {p : FileId → Bool}
    (h : ∀ c ∈ calls, p c.file = false) :
    (b.callAll calls).ledger.files.filter p = b.ledger.files.filter p := by
  induction calls generalizing b with
  | nil => rfl
  | cons c calls ih =>
    obtain ⟨hc, hcalls⟩ := List.forall_mem_cons.mp h
    have hfirst : (b.call c).1.ledger.files.filter p = b.ledger.files.filter p := by
      rw [call, FileOperation.run_fst]
      exact Ledger.filter_files_withShelf _ _ _ hc
    rw [← hfirst]
    exact ih (b.call c).1 hcalls

/-- **Files are independent.**  However two runs of calls on two different files are interleaved,
every call gives back what it gives back when its own run is run alone, and each of the two files
ends with the sections and the source that its own run alone leaves.  All other files, among them
those with sections, and the registry stay as they were. -/
theorem callAll_of_interleaves (b : Bench) {f g : FileId} (hfg : f ≠ g)
    {onF onG calls : List Call} (hf : ∀ c ∈ onF, c.file = f) (hg : ∀ c ∈ onG, c.file = g)
    (h : Interleaves onF onG calls) :
    ((b.transcript calls).filter (·.1.file = f) = b.transcript onF ∧
      (b.transcript calls).filter (·.1.file = g) = b.transcript onG) ∧
    ((b.callAll calls).ledger.shelf f = (b.callAll onF).ledger.shelf f ∧
      (b.callAll calls).sources f = (b.callAll onF).sources f) ∧
    ((b.callAll calls).ledger.shelf g = (b.callAll onG).ledger.shelf g ∧
      (b.callAll calls).sources g = (b.callAll onG).sources g) ∧
    (∀ other, other ≠ f → other ≠ g →
      (b.callAll calls).ledger.shelf other = b.ledger.shelf other) ∧
    ((b.callAll calls).ledger.files.filter (fun file => file ≠ f ∧ file ≠ g) =
      b.ledger.files.filter fun file => file ≠ f ∧ file ≠ g) ∧
    (b.callAll calls).ledger.kinds = b.ledger.kinds := by
  have honF : calls.filter (·.file = f) = onF :=
    h.filter_eq_left (by simpa using hf) fun c hc => by simpa [hg c hc] using hfg.symm
  have honG : calls.filter (·.file = g) = onG :=
    h.symm.filter_eq_left (by simpa using hg) fun c hc => by simpa [hf c hc] using hfg
  have hfiles : ∀ c ∈ calls, c.file = f ∨ c.file = g := fun c hc =>
    (h.mem_or_mem hc).imp (hf c) (hg c)
  have hagreeF := (AgreeOn.refl f b).callAll calls
  have hagreeG := (AgreeOn.refl g b).callAll calls
  rw [honF] at hagreeF
  rw [honG] at hagreeG
  refine ⟨⟨?_, ?_⟩, ⟨hagreeF.shelf, hagreeF.source⟩, ⟨hagreeG.shelf, hagreeG.source⟩, ?_, ?_,
    b.kinds_callAll calls⟩
  · rw [(AgreeOn.refl f b).transcript_filter calls, honF]
  · rw [(AgreeOn.refl g b).transcript_filter calls, honG]
  · intro other hotherF hotherG
    refine (b.agreeOn_callAll_of_forall_ne fun c hc heq => ?_).shelf
    exact (hfiles c hc).elim (fun hcf => hotherF (heq.symm.trans hcf))
      fun hcg => hotherG (heq.symm.trans hcg)
  · refine b.filter_files_callAll fun c hc => ?_
    rcases hfiles c hc with hcf | hcg
    · simp [hcf]
    · simp [hcg]

/-- While one file loses its first section and is cut again, another one is compiled: neither
notices. -/
theorem callAll_of_removal_and_compilation :
    let b : Bench := ⟨.empty, fun file => if file = 1 then ⟨["int x;", "// a"], false⟩
      else ⟨["// b"], false⟩⟩
    let onOne : List Call := [⟨1, none, .reparse⟩, ⟨1, none, .remove ⟨1, 1⟩⟩, ⟨1, none, .reparse⟩]
    let onTwo : List Call := [⟨2, none, .reparse⟩,
      ⟨2, none, .apply .compiledWithWarnings [⟨1, "1: warning"⟩]⟩]
    let calls : List Call := [⟨1, none, .reparse⟩, ⟨2, none, .reparse⟩, ⟨1, none, .remove ⟨1, 1⟩⟩,
      ⟨2, none, .apply .compiledWithWarnings [⟨1, "1: warning"⟩]⟩, ⟨1, none, .reparse⟩]
    (∀ c ∈ onOne, c.file = 1) ∧ (∀ c ∈ onTwo, c.file = 2) ∧ Interleaves onOne onTwo calls ∧
      (b.transcript calls).filter (·.1.file = 1) = b.transcript onOne ∧
      (b.callAll calls).ledger.shelf 1 = (b.callAll onOne).ledger.shelf 1 ∧
      (b.callAll calls).ledger.shelf 2 = (b.callAll onTwo).ledger.shelf 2 := by
  intro b onOne onTwo calls
  have hone : ∀ c ∈ onOne, c.file = 1 := by simp [onOne]
  have htwo : ∀ c ∈ onTwo, c.file = 2 := by simp [onTwo]
  have hcalls : Interleaves onOne onTwo calls :=
    .left _ (.right _ (.left _ (.right _ (.left _ .nil))))
  have hboth := callAll_of_interleaves b (by decide : (1 : FileId) ≠ 2) hone htwo hcalls
  exact ⟨hone, htwo, hcalls, hboth.1.1, hboth.2.1.1, hboth.2.2.1.1⟩

end Bench

end SectionLedger
