import Mathlib
import SectionLedger.Line.Opening

/-!
# Where a section ends, by position

The pass reads lines from the front and counts.  Here the end of a section is said without a pass:
the section that begins at position `i` ends at position `j` when `j` is the last position of a run,
the first one of a closer, or the least one at which brackets balance (`Category.EndsAt`).

`Extent.reach_eq_ok_iff` says that the number of lines that the pass takes leads to exactly that
position.
-/

namespace SectionLedger

/-! ### Categories by position -/

/-- The category of the line at a position, if there is one. -/
def categoryAt (lines : List String) (i : ℕ) : Option Category := lines[i]?.bind Line.classify

section CategoryAt

variable {lines : List String} {i m : ℕ} {c : Category}

/-- There is no category past the last line. -/
lemma lt_length_of_categoryAt (h : categoryAt lines i = some c) : i < lines.length := by
  obtain ⟨line, hline, -⟩ := Option.bind_eq_some_iff.mp h
  exact (List.getElem?_eq_some_iff.mp hline).1

/-- The category at the front is that of the first line. -/
@[simp] lemma categoryAt_cons_zero (line : String) (lines : List String) :
    categoryAt (line :: lines) 0 = Line.classify line := rfl

/-- The categories behind the front are those of the other lines. -/
@[simp] lemma categoryAt_cons_succ (line : String) (lines : List String) (i : ℕ) :
    categoryAt (line :: lines) (i + 1) = categoryAt lines i := rfl

/-- Categories of the lines from a position on. -/
@[simp] lemma categoryAt_drop (lines : List String) (m i : ℕ) :
    categoryAt (lines.drop m) i = categoryAt lines (m + i) := by
  rw [categoryAt, categoryAt, List.getElem?_drop]

/-- Categories of the lines before a position. -/
lemma categoryAt_take_of_lt (h : i < m) : categoryAt (lines.take m) i = categoryAt lines i := by
  rw [categoryAt, categoryAt, List.getElem?_take_of_lt h]

/-- The lines before a position have no line there. -/
lemma categoryAt_take_of_le (h : m ≤ i) : categoryAt (lines.take m) i = none := by
  rw [categoryAt, List.getElem?_take_eq_none h, Option.bind_none]

end CategoryAt

/-! ### Ends by position -/

/-- The last position of the run of lines of a category that begins at `i`. -/
def IsRunEnd (lines : List String) (c : Category) (i j : ℕ) : Prop :=
  i ≤ j ∧ (∀ k, i ≤ k → k ≤ j → categoryAt lines k = some c) ∧ categoryAt lines (j + 1) ≠ some c

/-- The first position after `i` with a line of a category. -/
def IsFirstAfter (lines : List String) (c : Category) (i j : ℕ) : Prop :=
  i < j ∧ categoryAt lines j = some c ∧ ∀ k, i < k → k < j → categoryAt lines k ≠ some c

/-- Some bracket of a pair occurs in the lines, and not more opening than closing ones do. -/
def IsBalanced (opening closing : Char) (lines : List String) : Prop :=
  (opening ∈ lines.flatMap String.toList ∨ closing ∈ lines.flatMap String.toList) ∧
    (lines.flatMap String.toList).count opening ≤ (lines.flatMap String.toList).count closing

/-- The least position from `i` on up to which the lines from `i` are balanced. -/
def IsBalancedEnd (lines : List String) (opening closing : Char) (i j : ℕ) : Prop :=
  i ≤ j ∧ j < lines.length ∧ IsBalanced opening closing (lines.extract i (j + 1)) ∧
    ∀ k, i ≤ k → k < j → ¬ IsBalanced opening closing (lines.extract i (k + 1))

namespace Category

/-- The kind of section that a line of a category begins; a closer begins none. -/
def kind? : Category → Option Kind
  | ifOpen | directive => some Kind.directive
  | variableDecl => some Kind.variableDecl
  | lineComment | inlineBlockComment | blockCommentOpen => some Kind.comment
  | procedureSignature => some Kind.procedure
  | asmBraceOpen | asmParenOpen | asmFloorOpen => some Kind.assembly
  | ifClose | blockCommentClose | asmFloorClose => none

/-- The construct that a line of a category begins, if lines can run out before it closes. -/
def construct? : Category → Option Construct
  | ifOpen => some .conditional
  | blockCommentOpen => some .blockComment
  | procedureSignature => some .procedureBody
  | asmBraceOpen => some .asmBlock
  | asmParenOpen => some .asmStatement
  | asmFloorOpen => some .asmFloor
  | directive | variableDecl | lineComment | inlineBlockComment => none
  | ifClose | blockCommentClose | asmFloorClose => none

/-- Whether the section that a line of a category begins is a run of lines of the category. -/
def isRun : Category → Bool
  | directive | variableDecl | lineComment => true
  | ifOpen | inlineBlockComment | blockCommentOpen => false
  | procedureSignature | asmBraceOpen | asmParenOpen | asmFloorOpen => false
  | ifClose | blockCommentClose | asmFloorClose => false

/-- A run is of no construct: lines cannot run out before it ends. -/
lemma construct?_of_isRun {c : Category} (h : c.isRun = true) : c.construct? = none := by
  cases c with
  | directive | variableDecl | lineComment => rfl
  | ifOpen | inlineBlockComment | blockCommentOpen => contradiction
  | procedureSignature | asmBraceOpen | asmParenOpen | asmFloorOpen => contradiction
  | ifClose | blockCommentClose | asmFloorClose => contradiction

/-- Whether the section that a line of a category at position `i` begins ends at position `j`. -/
def EndsAt (lines : List String) (i j : ℕ) : Category → Prop
  | inlineBlockComment => j = i
  | directive => IsRunEnd lines directive i j
  | variableDecl => IsRunEnd lines variableDecl i j
  | lineComment => IsRunEnd lines lineComment i j
  | ifOpen => IsFirstAfter lines ifClose i j
  | blockCommentOpen => IsFirstAfter lines blockCommentClose i j
  | asmFloorOpen => IsFirstAfter lines asmFloorClose i j
  | procedureSignature => IsBalancedEnd lines '{' '}' i j
  | asmBraceOpen => IsBalancedEnd lines '{' '}' i j
  | asmParenOpen => IsBalancedEnd lines '(' ')' i j
  | ifClose | blockCommentClose | asmFloorClose => False

end Category

/-! ### Ends among the lines from a position on -/

section Drop

variable {lines : List String} {m i j : ℕ}

/-- What holds from a shifted bound on, said of shifted positions. -/
lemma forall_add_le_iff {P : ℕ → Prop} : (∀ k, m + i ≤ k → P k) ↔ ∀ k, i ≤ k → P (m + k) := by
  constructor
  · intro h k hik
    exact h (m + k) (Nat.add_le_add_left hik m)
  · intro h k hk
    obtain ⟨k, rfl⟩ := Nat.exists_eq_add_of_le (le_of_add_le_left hk)
    exact h k (Nat.le_of_add_le_add_left hk)

/-- A run among the lines from a position on is one among all lines. -/
lemma isRunEnd_drop {c : Category} :
    IsRunEnd (lines.drop m) c i j ↔ IsRunEnd lines c (m + i) (m + j) := by
  simp only [IsRunEnd, categoryAt_drop, forall_add_le_iff, Nat.add_le_add_iff_left, Nat.add_assoc]

/-- A first closer among the lines from a position on is one among all lines. -/
lemma isFirstAfter_drop {c : Category} :
    IsFirstAfter (lines.drop m) c i j ↔ IsFirstAfter lines c (m + i) (m + j) := by
  simp only [IsFirstAfter, categoryAt_drop, Nat.lt_iff_add_one_le, Nat.add_assoc,
    forall_add_le_iff, Nat.add_le_add_iff_left]

/-- The lines between two positions after another position. -/
lemma extract_drop : (lines.drop m).extract i (j + 1) = lines.extract (m + i) (m + j + 1) := by
  rw [List.extract_eq_take_drop, List.extract_eq_take_drop, List.drop_drop]
  congr 1
  omega

/-- A balance among the lines from a position on is one among all lines. -/
lemma isBalancedEnd_drop {opening closing : Char} :
    IsBalancedEnd (lines.drop m) opening closing i j ↔
      IsBalancedEnd lines opening closing (m + i) (m + j) := by
  have hlen : j < lines.length - m ↔ m + j < lines.length := by omega
  simp only [IsBalancedEnd, extract_drop, List.length_drop, hlen, forall_add_le_iff,
    Nat.add_le_add_iff_left, Nat.add_lt_add_iff_left]

/-- An end among the lines from a position on is one among all lines. -/
lemma Category.endsAt_drop {c : Category} :
    c.EndsAt (lines.drop m) i j ↔ c.EndsAt lines (m + i) (m + j) := by
  cases c <;>
    simp only [EndsAt, isRunEnd_drop, isFirstAfter_drop, isBalancedEnd_drop, Nat.add_right_inj]

end Drop

/-! ### Ends before a position -/

section Take

variable {lines : List String} {m i j : ℕ} {c : Category}

/-- No section ends before it begins. -/
lemma Category.EndsAt.le (h : c.EndsAt lines i j) : i ≤ j := by
  cases c with
  | inlineBlockComment => exact (h : j = i).ge
  | directive | variableDecl | lineComment => exact h.1
  | ifOpen | blockCommentOpen | asmFloorOpen => exact h.1.le
  | procedureSignature | asmBraceOpen | asmParenOpen => exact h.1
  | ifClose | blockCommentClose | asmFloorClose => exact h.elim

/-- No section ends past the last line. -/
lemma Category.EndsAt.lt_length (hc : categoryAt lines i = some c) (h : c.EndsAt lines i j) :
    j < lines.length := by
  cases c with
  | inlineBlockComment => exact (h : j = i) ▸ lt_length_of_categoryAt hc
  | directive | variableDecl | lineComment => exact lt_length_of_categoryAt (h.2.1 j h.1 le_rfl)
  | ifOpen | blockCommentOpen | asmFloorOpen => exact lt_length_of_categoryAt h.2.1
  | procedureSignature | asmBraceOpen | asmParenOpen => exact h.2.1
  | ifClose | blockCommentClose | asmFloorClose => exact h.elim

/-- The lines between two positions lie before any later position. -/
lemma extract_take (hj : j < m) : (lines.take m).extract i (j + 1) = lines.extract i (j + 1) := by
  rw [List.extract_eq_take_drop, List.extract_eq_take_drop, List.drop_take, List.take_take]
  congr 1
  omega

/-- A first closer before a position does not depend on the lines from there on. -/
lemma isFirstAfter_take (hj : j < m) :
    IsFirstAfter (lines.take m) c i j ↔ IsFirstAfter lines c i j := by
  rw [IsFirstAfter, IsFirstAfter, categoryAt_take_of_lt hj]
  refine and_congr_right fun _ => and_congr_right fun _ => forall_congr' fun k => ?_
  refine forall_congr' fun _ => forall_congr' fun hk => ?_
  rw [categoryAt_take_of_lt (hk.trans hj)]

/-- A balance before a position does not depend on the lines from there on. -/
lemma isBalancedEnd_take {opening closing : Char} (hj : j < m) :
    IsBalancedEnd (lines.take m) opening closing i j ↔
      IsBalancedEnd lines opening closing i j := by
  rw [IsBalancedEnd, IsBalancedEnd, extract_take hj, List.length_take]
  refine and_congr_right fun _ => and_congr (by omega) (and_congr_right fun _ => ?_)
  refine forall_congr' fun k => forall_congr' fun _ => forall_congr' fun hk => ?_
  rw [extract_take (hk.trans hj)]

/-- A run that ends before a position ends there without the lines from the position on. -/
lemma IsRunEnd.take (h : IsRunEnd lines c i j) (hj : j < m) : IsRunEnd (lines.take m) c i j := by
  obtain ⟨hij, hall, hend⟩ := h
  refine ⟨hij, fun k hik hkj => ?_, ?_⟩
  · rw [categoryAt_take_of_lt (by omega)]
    exact hall k hik hkj
  · rcases Nat.lt_or_ge (j + 1) m with hlt | hge
    · rwa [categoryAt_take_of_lt hlt]
    · rw [categoryAt_take_of_le hge]
      exact Option.some_ne_none c |>.symm

/-- A run among the lines before a position is one among all lines, unless it goes on there. -/
lemma IsRunEnd.of_take (h : IsRunEnd (lines.take m) c i j) (hj : j < m)
    (hm : j + 1 = m → categoryAt lines m ≠ some c) : IsRunEnd lines c i j := by
  obtain ⟨hij, hall, hend⟩ := h
  refine ⟨hij, fun k hik hkj => ?_, ?_⟩
  · have hk := hall k hik hkj
    rwa [categoryAt_take_of_lt (hkj.trans_lt hj)] at hk
  · rcases Nat.lt_or_ge (j + 1) m with hlt | hge
    · rwa [categoryAt_take_of_lt hlt] at hend
    · obtain rfl : m = j + 1 := by omega
      exact hm rfl

/-- An end before a position is one without the lines from the position on. -/
lemma Category.EndsAt.take (h : c.EndsAt lines i j) (hj : j < m) :
    c.EndsAt (lines.take m) i j := by
  cases c with
  | inlineBlockComment => exact h
  | directive | variableDecl | lineComment => exact IsRunEnd.take h hj
  | ifOpen | blockCommentOpen | asmFloorOpen => exact (isFirstAfter_take hj).mpr h
  | procedureSignature | asmBraceOpen | asmParenOpen => exact (isBalancedEnd_take hj).mpr h
  | ifClose | blockCommentClose | asmFloorClose => exact h

/-- An end among the lines before a position is one among all lines, unless a run goes on there. -/
lemma Category.EndsAt.of_take (h : c.EndsAt (lines.take m) i j) (hj : j < m)
    (hm : c.isRun = true → j + 1 = m → categoryAt lines m ≠ some c) : c.EndsAt lines i j := by
  cases c with
  | inlineBlockComment => exact h
  | directive | variableDecl | lineComment => exact IsRunEnd.of_take h hj (hm rfl)
  | ifOpen | blockCommentOpen | asmFloorOpen => exact (isFirstAfter_take hj).mp h
  | procedureSignature | asmBraceOpen | asmParenOpen => exact (isBalancedEnd_take hj).mp h
  | ifClose | blockCommentClose | asmFloorClose => exact h

end Take

/-! ### The pass counts to the end -/

/-- How long a run in front is. -/
lemma length_takeWhile_eq_iff {c : Category} {lines : List String} {n : ℕ} :
    (lines.takeWhile fun l => Line.classify l = some c).length = n ↔
      (∀ k < n, categoryAt lines k = some c) ∧ categoryAt lines n ≠ some c := by
  induction lines generalizing n with
  | nil =>
    constructor
    · rintro rfl
      exact ⟨fun k hk => absurd hk (Nat.not_lt_zero k), by simp [categoryAt]⟩
    · rintro ⟨hall, -⟩
      by_contra hne
      have hzero := hall 0 (Nat.pos_of_ne_zero fun h => hne h.symm)
      simp [categoryAt] at hzero
  | cons line lines ih =>
    by_cases hline : Line.classify line = some c
    · rw [List.takeWhile_cons_of_pos (by simpa using hline), List.length_cons]
      cases n with
      | zero => simp [hline]
      | succ n =>
        rw [Nat.add_left_inj, ih, Nat.forall_lt_succ_left]
        simp [hline]
    · rw [List.takeWhile_cons_of_neg (by simpa using hline), List.length_nil]
      cases n with
      | zero => simp [hline]
      | succ n =>
        rw [Nat.forall_lt_succ_left]
        simp [hline]

/-- Which line is the first of a category. -/
lemma findIdx?_eq_some_iff_categoryAt {c : Category} {lines : List String} {n : ℕ} :
    (lines.findIdx? fun l => Line.classify l = some c) = some n ↔
      categoryAt lines n = some c ∧ ∀ k < n, categoryAt lines k ≠ some c := by
  induction lines generalizing n with
  | nil => simp [categoryAt]
  | cons line lines ih =>
    rw [List.findIdx?_cons]
    by_cases hline : Line.classify line = some c
    · cases n with
      | zero => simp [hline]
      | succ n =>
        rw [Nat.forall_lt_succ_left]
        simp [hline]
    · cases n with
      | zero => simp [hline]
      | succ n =>
        rw [Nat.forall_lt_succ_left]
        simp [hline, ih]

/-- The lines are balanced when some bracket has been met before and some are left open. -/
def IsBalancedAfter (opening closing : Char) (depth : ℤ) (met : Bool) (lines : List String) :
    Prop :=
  (met = true ∨ opening ∈ lines.flatMap String.toList ∨ closing ∈ lines.flatMap String.toList) ∧
    depth + (lines.flatMap String.toList).count opening -
      (lines.flatMap String.toList).count closing ≤ 0

section Balance

variable {opening closing : Char} {depth : ℤ} {met : Bool} {line : String} {lines : List String}

/-- With nothing met before, the lines are balanced on their own. -/
lemma isBalancedAfter_zero :
    IsBalancedAfter opening closing 0 false lines ↔ IsBalanced opening closing lines := by
  simp only [IsBalancedAfter, IsBalanced, Bool.false_eq_true, false_or]
  refine and_congr_right fun _ => ?_
  omega

/-- The brackets of the first line count as met before the others. -/
lemma isBalancedAfter_cons :
    IsBalancedAfter opening closing depth met (line :: lines) ↔
      IsBalancedAfter opening closing (depth + Line.excess opening closing line)
        (met || Line.hasBracket opening closing line) lines := by
  simp only [IsBalancedAfter, List.flatMap_cons, List.mem_append, List.count_append,
    Line.excess, Line.hasBracket, Bool.or_eq_true, List.contains_iff_mem, Nat.cast_add]
  refine and_congr ?_ ?_
  · tauto
  · constructor <;> intro h <;> linarith

/-- Without further lines, what was met before decides. -/
lemma isBalancedAfter_nil :
    IsBalancedAfter opening closing depth met [] ↔ (met && depth ≤ 0) = true := by
  simp [IsBalancedAfter]

/-- The least number of lines at whose end the brackets balance. -/
lemma balance?_eq_some_iff {n : ℕ} :
    Line.balance? opening closing depth met lines = some n ↔
      n < lines.length ∧ IsBalancedAfter opening closing depth met (lines.take (n + 1)) ∧
        ∀ k < n, ¬ IsBalancedAfter opening closing depth met (lines.take (k + 1)) := by
  induction lines generalizing depth met n with
  | nil => simp [Line.balance?]
  | cons line lines ih =>
    simp only [Line.balance?, List.take_succ_cons, isBalancedAfter_cons]
    set depth' := depth + Line.excess opening closing line
    set met' := met || Line.hasBracket opening closing line
    have hfront : IsBalancedAfter opening closing depth' met' [] ↔ (met' && depth' ≤ 0) = true :=
      isBalancedAfter_nil
    by_cases hb : (met' && depth' ≤ 0) = true
    · rw [if_pos hb]
      cases n with
      | zero => simp [hfront, hb]
      | succ n =>
        rw [Nat.forall_lt_succ_left]
        simp [hfront, hb]
    · rw [if_neg hb]
      cases n with
      | zero => simp [hfront, hb]
      | succ n =>
        rw [Nat.forall_lt_succ_left, Option.map_eq_some_iff]
        simp [hfront, hb, ih]

end Balance

section Reach

variable {line : String} {rest : List String} {c : Category} {o : Opening} {n : ℕ}

/-- A run that begins in front, said of the lines behind the first. -/
lemma isRunEnd_cons_iff (hc : Line.classify line = some c) :
    IsRunEnd (line :: rest) c 0 n ↔
      (∀ k < n, categoryAt rest k = some c) ∧ categoryAt rest n ≠ some c := by
  simp only [IsRunEnd, Nat.zero_le, true_and, forall_const, categoryAt_cons_succ]
  refine and_congr_left fun _ => ⟨fun h k hk => ?_, fun h k hk => ?_⟩
  · exact h (k + 1) hk
  · cases k with
    | zero => exact hc
    | succ k => exact h k hk

/-- A first closer behind the first line, said of the lines behind it. -/
lemma isFirstAfter_cons_iff :
    IsFirstAfter (line :: rest) c 0 (n + 1) ↔
      categoryAt rest n = some c ∧ ∀ k < n, categoryAt rest k ≠ some c := by
  simp only [IsFirstAfter, Nat.succ_pos, true_and, categoryAt_cons_succ]
  refine and_congr_right fun _ => ⟨fun h k hk => ?_, fun h k hpos hk => ?_⟩
  · exact h (k + 1) k.succ_pos (Nat.succ_lt_succ hk)
  · obtain ⟨k, rfl⟩ := Nat.exists_eq_succ_of_ne_zero hpos.ne'
    exact h k (Nat.lt_of_succ_lt_succ hk)

/-- A balance that begins in front, said of prefixes of the lines. -/
lemma isBalancedEnd_zero_iff {opening closing : Char} {lines : List String} :
    IsBalancedEnd lines opening closing 0 n ↔
      n < lines.length ∧ IsBalanced opening closing (lines.take (n + 1)) ∧
        ∀ k < n, ¬ IsBalanced opening closing (lines.take (k + 1)) := by
  simp [IsBalancedEnd, List.extract_eq_take_drop]

/-- What a category opens, as a kind. -/
lemma Category.kind?_eq_map (c : Category) : c.kind? = c.opening?.map Opening.kind := by
  cases c <;> rfl

/-- The lines that the pass takes for a section lead to the section's end. -/
theorem Extent.reach_eq_ok_iff (hc : Line.classify line = some c) (ho : c.opening? = some o) :
    o.extent.reach line rest = .ok n ↔ c.EndsAt (line :: rest) 0 n := by
  have hrun : ∀ c, Line.classify line = some c →
      ((Extent.run c).reach line rest = .ok n ↔ IsRunEnd (line :: rest) c 0 n) := by
    intro c hc
    rw [isRunEnd_cons_iff hc, ← length_takeWhile_eq_iff, reach, Except.ok.injEq]
  have hupTo : ∀ closer construct, (Extent.upTo closer construct).reach line rest = .ok n ↔
      IsFirstAfter (line :: rest) closer 0 n := by
    intro closer construct
    simp only [reach]
    cases n with
    | zero => split <;> simp [IsFirstAfter]
    | succ n =>
      rw [isFirstAfter_cons_iff, ← findIdx?_eq_some_iff_categoryAt]
      cases rest.findIdx? fun l => Line.classify l = some closer <;> simp
  have hbalanced : ∀ opening closing construct,
      (Extent.balanced opening closing construct).reach line rest = .ok n ↔
        IsBalancedEnd (line :: rest) opening closing 0 n := by
    intro opening closing construct
    simp only [reach, isBalancedEnd_zero_iff, ← isBalancedAfter_zero, ← balance?_eq_some_iff]
    cases Line.balance? opening closing 0 false (line :: rest) <;> simp
  cases c <;> simp only [Category.opening?, Option.some.injEq, reduceCtorEq] at ho <;> subst ho
  case inlineBlockComment => simp [reach, Category.EndsAt, eq_comm]
  case directive => exact hrun _ hc
  case variableDecl => exact hrun _ hc
  case lineComment => exact hrun _ hc
  case ifOpen => exact hupTo _ _
  case blockCommentOpen => exact hupTo _ _
  case asmFloorOpen => exact hupTo _ _
  case procedureSignature => exact hbalanced _ _ _
  case asmBraceOpen => exact hbalanced _ _ _
  case asmParenOpen => exact hbalanced _ _ _

/-- A section that never ends is of the construct that the pass names. -/
lemma Extent.construct?_of_reach_eq_error {construct : Construct} (ho : c.opening? = some o)
    (h : o.extent.reach line rest = .error construct) : c.construct? = some construct := by
  have hrun : ∀ c, (Extent.run c).reach line rest ≠ .error construct := by
    simp [reach]
  have hupTo : ∀ closer k, (Extent.upTo closer k).reach line rest = .error construct →
      k = construct := by
    intro closer k h
    simp only [reach] at h
    cases hfind : rest.findIdx? fun l => Line.classify l = some closer <;> simp_all
  have hbalanced : ∀ opening closing k,
      (Extent.balanced opening closing k).reach line rest = .error construct → k = construct := by
    intro opening closing k h
    simp only [reach] at h
    cases hbalance : Line.balance? opening closing 0 false (line :: rest) <;> simp_all
  cases c <;> simp only [Category.opening?, Option.some.injEq, reduceCtorEq] at ho <;> subst ho
  case inlineBlockComment => simp [reach] at h
  case directive => exact absurd h (hrun _)
  case variableDecl => exact absurd h (hrun _)
  case lineComment => exact absurd h (hrun _)
  case ifOpen => exact congrArg some (hupTo _ _ h)
  case blockCommentOpen => exact congrArg some (hupTo _ _ h)
  case asmFloorOpen => exact congrArg some (hupTo _ _ h)
  case procedureSignature => exact congrArg some (hbalanced _ _ _ h)
  case asmBraceOpen => exact congrArg some (hbalanced _ _ _ h)
  case asmParenOpen => exact congrArg some (hbalanced _ _ _ h)

end Reach

end SectionLedger
