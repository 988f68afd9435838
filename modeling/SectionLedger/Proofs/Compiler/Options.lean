import Mathlib
import SectionLedger.Compiler.Program

/-!
# Options and their arguments

Options are held against the tables one after the other.  They are either all listed or there is a
first one that is not (`Options.listed_or_firstOffence`), and the check says which.  No backend goes
on with options that are refused.

The arguments of options that are accepted give the options back (`Options.eq_of_arguments_eq`).
The optimizations and the options that depend on the processor stand behind each other with no mark
in between; what tells them apart is that no optimization depends on a processor
(`Options.not_mem_allOptimizations`).
-/

namespace SectionLedger

namespace Options

/-- Every option is in its table. -/
structure Listed (o : Options) : Prop where
  standard : o.standard ∈ standards
  processor : o.processor ∈ processors
  optimizations : ∀ name ∈ o.optimizations, name ∈ allOptimizations
  /-- The table is that of the processor. -/
  dependent : ∀ name ∈ o.dependent, name ∈ dependentOn o.processor

/-- The fault names the first option that is not in its table: the standard comes first, then the
processor, the optimizations in their order, and the dependent options in theirs. -/
inductive FirstOffence (o : Options) : OptionFault → Prop where
  | standard (h : o.standard ∉ standards) : FirstOffence o (.unknownStandard o.standard)
  | processor (hstandard : o.standard ∈ standards) (h : o.processor ∉ processors) :
      FirstOffence o (.unknownProcessor o.processor)
  | optimization {before after : List String} {name : String} (hstandard : o.standard ∈ standards)
      (hprocessor : o.processor ∈ processors) (hsplit : o.optimizations = before ++ name :: after)
      (hbefore : ∀ other ∈ before, other ∈ allOptimizations) (h : name ∉ allOptimizations) :
      FirstOffence o (.unknownOptimization name)
  | dependent {before after : List String} {name : String} (hstandard : o.standard ∈ standards)
      (hprocessor : o.processor ∈ processors)
      (hoptimizations : ∀ other ∈ o.optimizations, other ∈ allOptimizations)
      (hsplit : o.dependent = before ++ name :: after)
      (hbefore : ∀ other ∈ before, other ∈ dependentOn o.processor)
      (h : name ∉ dependentOn o.processor) : FirstOffence o (.notAvailable name o.processor)

variable {o o' : Options}

/-! ### What the check finds -/

/-- Nothing outside a table is found in a list exactly if the table has all of it. -/
lemma find?_outside_eq_none_iff {names table : List String} :
    (names.find? fun name => !table.contains name) = none ↔ ∀ name ∈ names, name ∈ table := by
  simp

/-- What is found outside a table is the first member of a list that the table does not have. -/
lemma find?_outside_eq_some_iff {names table : List String} {name : String} :
    (names.find? fun name => !table.contains name) = some name ↔
      ∃ before after, names = before ++ name :: after ∧ (∀ other ∈ before, other ∈ table) ∧
        name ∉ table := by
  rw [List.find?_eq_some_iff_append]
  constructor
  · rintro ⟨hname, before, after, rfl, hbefore⟩
    exact ⟨before, after, rfl, by simpa using hbefore, by simpa using hname⟩
  · rintro ⟨before, after, rfl, hbefore, hname⟩
    exact ⟨by simpa using hname, before, after, rfl, by simpa using hbefore⟩

/-- Options are all listed, or there is a first offence. -/
lemma listed_or_firstOffence (o : Options) : o.Listed ∨ ∃ fault, o.FirstOffence fault := by
  by_cases hstandard : o.standard ∈ standards
  · by_cases hprocessor : o.processor ∈ processors
    · cases hoptimization : o.optimizations.find? fun name => !allOptimizations.contains name with
      | some name =>
        obtain ⟨before, after, hsplit, hbefore, hname⟩ := find?_outside_eq_some_iff.mp hoptimization
        exact .inr ⟨_, .optimization hstandard hprocessor hsplit hbefore hname⟩
      | none =>
        have hoptimizations := find?_outside_eq_none_iff.mp hoptimization
        cases hdependent : o.dependent.find?
          fun name => !(dependentOn o.processor).contains name with
        | some name =>
          obtain ⟨before, after, hsplit, hbefore, hname⟩ := find?_outside_eq_some_iff.mp hdependent
          exact .inr ⟨_, .dependent hstandard hprocessor hoptimizations hsplit hbefore hname⟩
        | none =>
          exact .inl ⟨hstandard, hprocessor, hoptimizations,
            find?_outside_eq_none_iff.mp hdependent⟩
    · exact .inr ⟨_, .processor hstandard hprocessor⟩
  · exact .inr ⟨_, .standard hstandard⟩

/-- Listed options are accepted. -/
lemma Listed.check_eq (h : o.Listed) : o.check = .ok () := by
  rw [check, if_pos (by simpa using h.standard), if_pos (by simpa using h.processor)]
  simp only [find?_outside_eq_none_iff.mpr h.optimizations,
    find?_outside_eq_none_iff.mpr h.dependent]
  rfl

/-- The check names the first offence. -/
lemma FirstOffence.check_eq {fault : OptionFault} (h : o.FirstOffence fault) :
    o.check = .error fault := by
  cases h with
  | standard h =>
    rw [check, if_neg (by simpa using h)]
    rfl
  | processor hstandard h =>
    rw [check, if_pos (by simpa using hstandard), if_neg (by simpa using h)]
    rfl
  | optimization hstandard hprocessor hsplit hbefore h =>
    rw [check, if_pos (by simpa using hstandard), if_pos (by simpa using hprocessor)]
    simp only [find?_outside_eq_some_iff.mpr ⟨_, _, hsplit, hbefore, h⟩]
    rfl
  | dependent hstandard hprocessor hoptimizations hsplit hbefore h =>
    rw [check, if_pos (by simpa using hstandard), if_pos (by simpa using hprocessor)]
    simp only [find?_outside_eq_none_iff.mpr hoptimizations,
      find?_outside_eq_some_iff.mpr ⟨_, _, hsplit, hbefore, h⟩]
    rfl

/-- The check accepts listed options, and no others. -/
lemma check_eq_ok_iff : o.check = .ok () ↔ o.Listed := by
  refine ⟨fun hok => ?_, Listed.check_eq⟩
  rcases o.listed_or_firstOffence with hlisted | ⟨fault, hfault⟩
  · exact hlisted
  · rw [hfault.check_eq] at hok
    contradiction

/-- The check refuses options with their first offence, and with nothing else. -/
lemma check_eq_error_iff {fault : OptionFault} : o.check = .error fault ↔ o.FirstOffence fault := by
  refine ⟨fun herror => ?_, FirstOffence.check_eq⟩
  rcases o.listed_or_firstOffence with hlisted | ⟨fault', hfault'⟩
  · rw [hlisted.check_eq] at herror
    contradiction
  · rw [hfault'.check_eq] at herror
    exact Except.error.inj herror ▸ hfault'

/-! ### What the arguments say -/

/-- The argument asks for a listed standard, a listed processor, a listed optimization, or an option
that the processor has. -/
def IsSwitch (processor argument : String) : Prop :=
  (∃ name ∈ standards, argument = "--std-" ++ name) ∨
    (∃ name ∈ processors, argument = "-m" ++ name) ∨
    ∃ name, (name ∈ allOptimizations ∨ name ∈ dependentOn processor) ∧ argument = "--" ++ name

/-- Listed options are asked for by switches of the tables. -/
lemma Listed.isSwitch (h : o.Listed) {argument : String} (hargument : argument ∈ o.arguments) :
    IsSwitch o.processor argument := by
  rw [arguments, List.cons_append, List.cons_append, List.nil_append, List.mem_cons,
    List.mem_cons, List.mem_map] at hargument
  rcases hargument with rfl | rfl | ⟨name, hname, rfl⟩
  · exact .inl ⟨_, h.standard, rfl⟩
  · exact .inr (.inl ⟨_, h.processor, rfl⟩)
  · refine .inr (.inr ⟨name, ?_, rfl⟩)
    exact (List.mem_append.mp hname).imp (h.optimizations name) (h.dependent name)

/-- No option that depends on a processor is an optimization. -/
lemma not_mem_allOptimizations {processor name : String} (hprocessor : processor ∈ processors)
    (hname : name ∈ dependentOn processor) : name ∉ allOptimizations := by
  have htables : ∀ processor ∈ processors, ∀ name ∈ dependentOn processor,
      name ∉ allOptimizations := by decide +kernel
  exact htables processor hprocessor name hname

/-- The optimizations are the options of either sort that are listed as optimizations. -/
lemma Listed.filter_append (h : o.Listed) :
    (o.optimizations ++ o.dependent).filter (· ∈ allOptimizations) = o.optimizations := by
  have hoptimizations : o.optimizations.filter (· ∈ allOptimizations) = o.optimizations :=
    List.filter_eq_self.mpr fun name hname => decide_eq_true (h.optimizations name hname)
  have hdependent : o.dependent.filter (· ∈ allOptimizations) = [] := by
    refine List.filter_eq_nil_iff.mpr fun name hname => ?_
    rw [decide_eq_true_eq]
    exact not_mem_allOptimizations h.processor (h.dependent name hname)
  rw [List.filter_append, hoptimizations, hdependent, List.append_nil]

/-- Listed options with the same arguments are the same. -/
lemma Listed.eq_of_arguments_eq (h : o.Listed) (h' : o'.Listed)
    (harguments : o.arguments = o'.arguments) : o = o' := by
  obtain ⟨standard, processor, optimizations, dependent⟩ := o
  obtain ⟨standard', processor', optimizations', dependent'⟩ := o'
  have hswitch : Function.Injective fun name : String => "--" ++ name := fun a b hab => by
    simpa using hab
  rw [arguments, arguments, List.cons_append, List.cons_append, List.cons_append,
    List.cons_append, List.nil_append, List.nil_append, List.cons.injEq, List.cons.injEq,
    (List.map_injective_iff.mpr hswitch).eq_iff] at harguments
  obtain ⟨hstandard, hprocessor, hrest⟩ := harguments
  obtain rfl : standard = standard' := by simpa using hstandard
  obtain rfl : processor = processor' := by simpa using hprocessor
  -- the tables tell where the optimizations end
  have hfilter := congrArg (List.filter (· ∈ allOptimizations)) hrest
  rw [h.filter_append, h'.filter_append] at hfilter
  obtain rfl : optimizations = optimizations' := hfilter
  obtain rfl : dependent = dependent' := List.append_cancel_left hrest
  rfl

/-- **The check accepts what the tables list.**  Options are accepted exactly if every one of them
is in its table, and otherwise refused with the first one that is not.  The arguments of accepted
options are switches of the tables, and tell them apart from all other accepted options.  For
refused options no backend has an outcome but the refusal. -/
theorem check_admits_listed (o : Options) :
    (o.check = .ok () ↔ o.Listed) ∧
    (∀ fault, o.check = .error fault ↔ o.FirstOffence fault) ∧
    (o.check = .ok () → (∀ argument ∈ o.arguments, IsSwitch o.processor argument) ∧
      ∀ o' : Options, o'.check = .ok () → o.arguments = o'.arguments → o = o') ∧
    ∀ request : Request, request.options = o → o.check ≠ .ok () →
      ∃ fault, o.FirstOffence fault ∧
        (∀ programs binary source,
          Program.backend programs binary request source = .error (.badOptions fault)) ∧
        ∀ artifacts source,
          Backend.fixed artifacts request source = .error (.badOptions fault) := by
  refine ⟨check_eq_ok_iff, fun fault => check_eq_error_iff, fun hok => ⟨?_, ?_⟩, ?_⟩
  · intro argument hargument
    exact (check_eq_ok_iff.mp hok).isSwitch hargument
  · intro o' hok' harguments
    exact (check_eq_ok_iff.mp hok).eq_of_arguments_eq (check_eq_ok_iff.mp hok') harguments
  · rintro request rfl hrefused
    rcases request.options.listed_or_firstOffence with hlisted | ⟨fault, hfault⟩
    · exact absurd hlisted.check_eq hrefused
    · refine ⟨fault, hfault, fun programs binary source => ?_, fun artifacts source => ?_⟩
      · rw [Program.backend, Program.backendIn]
        exact Backend.checked_eq_error hfault.check_eq source
      · exact Backend.checked_eq_error hfault.check_eq source

/-- Repeated options are accepted, and told from all others by their arguments.  An option of
another processor is refused by name, and is compiled by no backend. -/
theorem check_admits_listed_of_z80 :
    let o : Options := ⟨"c99", "z80", ["no-peep", "no-peep"], ["no-std-crt0"]⟩
    let refused : Options := { o with dependent := ["no-std-crt0", "model-small", "stack-probe"] }
    let fault := OptionFault.notAvailable "model-small" "z80"
    o.Listed ∧ (∀ argument ∈ o.arguments, IsSwitch "z80" argument) ∧
      (∀ o' : Options, o'.check = .ok () → o.arguments = o'.arguments → o = o') ∧
      refused.FirstOffence fault ∧
      Program.backend [] "sdcc" ⟨"source.c", "source.asm", refused⟩ "int x;" =
        .error (.badOptions fault) := by
  intro o refused fault
  have hok : o.check = .ok () := by decide +kernel
  have herror : refused.check = .error fault := by decide +kernel
  obtain ⟨hlisted, -, harguments, -⟩ := check_admits_listed o
  obtain ⟨-, hoffence, -, hbackend⟩ := check_admits_listed refused
  obtain ⟨fault', hfault', hprogram, -⟩ :=
    hbackend ⟨"source.c", "source.asm", refused⟩ rfl (by rw [herror]; exact nofun)
  obtain rfl : fault = fault' :=
    Except.error.inj (herror.symm.trans ((hoffence fault').mpr hfault'))
  exact ⟨hlisted.mp hok, (harguments hok).1, (harguments hok).2, (hoffence fault).mp herror,
    hprogram [] "sdcc" "int x;"⟩

end Options

end SectionLedger
