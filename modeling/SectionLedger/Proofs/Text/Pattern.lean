import Mathlib
import SectionLedger.Text.Pattern

/-!
# What a pattern leaves

A pattern lists the rests that its matches leave.  Here each rest is said by what was taken in front
of it: a literal takes itself (`mem_rests_literal`), a class takes a run of its members
(`mem_rests_many`), a sequence takes what its parts take, one after the other (`mem_rests_seq`), and
a choice of words takes one of the words (`mem_rests_oneOf_word`).
-/

namespace SectionLedger.Text.Pattern

variable {p q : Pattern} {isMember : Char → Bool} {text s r : List Char}

/-- A pattern matches at the front of a text if it leaves some rest. -/
lemma matchesFront_iff : p.matchesFront s = true ↔ ∃ r, r ∈ p.rests s := by
  rw [matchesFront, Bool.not_eq_true', List.isEmpty_eq_false_iff, Ne,
    List.eq_nil_iff_forall_not_mem, not_forall_not]

/-- A literal leaves what follows it. -/
lemma mem_rests_literal : r ∈ (literal text).rests s ↔ text ++ r = s := by
  rw [rests]
  constructor
  · intro h
    split at h
    · next hprefix =>
      rw [List.mem_singleton.mp h]
      exact (List.prefix_iff_eq_append.mp (List.isPrefixOf_iff_prefix.mp hprefix))
    · exact absurd h List.not_mem_nil
  · rintro rfl
    have hprefix : text.isPrefixOf (text ++ r) = true :=
      List.isPrefixOf_iff_prefix.mpr (List.prefix_append text r)
    rw [if_pos hprefix, List.drop_left, List.mem_singleton]

/-- A class leaves what follows a run of its members. -/
lemma mem_rests_many :
    r ∈ (many isMember).rests s ↔ ∃ run, run ++ r = s ∧ ∀ c ∈ run, isMember c = true := by
  rw [rests, List.mem_reverse, mem_afterRuns_iff]

/-- A sequence leaves what the second pattern leaves of a rest of the first. -/
lemma mem_rests_seq : r ∈ (seq p q).rests s ↔ ∃ t ∈ p.rests s, r ∈ q.rests t := by
  rw [rests, List.mem_flatMap]

/-- A choice leaves what either pattern leaves. -/
lemma mem_rests_either : r ∈ (either p q).rests s ↔ r ∈ p.rests s ∨ r ∈ q.rests s := by
  rw [rests, List.mem_append]

/-- One character of a class leaves what follows a member. -/
lemma mem_rests_one : r ∈ (one isMember).rests s ↔ ∃ c, isMember c = true ∧ c :: r = s := by
  cases s with
  | nil => simp [rests]
  | cons d s =>
    rw [rests]
    constructor
    · intro h
      split at h
      · next hd => exact ⟨d, hd, congrArg _ (List.mem_singleton.mp h)⟩
      · exact absurd h List.not_mem_nil
    · rintro ⟨c, hc, hs⟩
      obtain ⟨rfl, rfl⟩ := List.cons.inj hs
      rw [if_pos hc, List.mem_singleton]

/-- One or more characters of a class leave what follows a run that is not empty. -/
lemma mem_rests_oneOrMore : r ∈ (oneOrMore isMember).rests s ↔
    ∃ run, run ≠ [] ∧ run ++ r = s ∧ ∀ c ∈ run, isMember c = true := by
  simp only [oneOrMore, mem_rests_seq, mem_rests_one, mem_rests_many]
  constructor
  · rintro ⟨t, ⟨c, hc, rfl⟩, run, rfl, hrun⟩
    exact ⟨c :: run, List.cons_ne_nil c run, rfl, List.forall_mem_cons.mpr ⟨hc, hrun⟩⟩
  · rintro ⟨run, hne, rfl, hrun⟩
    obtain ⟨c, run, rfl⟩ := List.exists_cons_of_ne_nil hne
    obtain ⟨hc, hrun⟩ := List.forall_mem_cons.mp hrun
    exact ⟨run ++ r, ⟨c, hc, rfl⟩, run, rfl, hrun⟩

/-- A choice of words leaves what follows one of them. -/
lemma mem_rests_oneOf_word {words : List String} :
    r ∈ (oneOf (words.map word)).rests s ↔ ∃ w ∈ words, w.toList ++ r = s := by
  induction words with
  | nil => simp [oneOf, mem_rests_one]
  | cons w words ih =>
    have hword : r ∈ (word w).rests s ↔ w.toList ++ r = s := mem_rests_literal
    cases words with
    | nil => simp [oneOf, hword]
    | cons w' words =>
      have hchoice : oneOf ((w :: w' :: words).map word) =
          either (word w) (oneOf ((w' :: words).map word)) := rfl
      rw [hchoice, mem_rests_either, hword, ih]
      simp only [List.mem_cons, exists_eq_or_imp]

/-- The end of the text leaves nothing of nothing. -/
lemma mem_rests_finish : r ∈ finish.rests s ↔ s = [] ∧ r = [] := by
  cases s <;> simp [rests]

end SectionLedger.Text.Pattern
