import Mathlib

/-!
# Steps that may fail

What the outcome of a chain of fallible steps says about its parts.  If it succeeded, so did each
step of a bind (`exists_of_bind_eq_ok`) and of a walk over a list (`exists_map_of_mapM_eq_ok`), and
what all of them preserve still holds (`foldlM_invariant`); if it failed, one of them did
(`eq_error_or_exists_of_bind_eq_error`, `exists_of_mapM_eq_error`).
Steps that may also lack a value, but never do, are the steps on their values (`mk_some_bind`,
`mapM_mk_some`).
-/

namespace SectionLedger

section Attempt

variable {ε α β : Type}

/-- A chain of two steps succeeds only if both do. -/
lemma exists_of_bind_eq_ok {x : Except ε α} {f : α → Except ε β} {b : β}
    (h : x >>= f = .ok b) : ∃ a, x = .ok a ∧ f a = .ok b := by
  cases x with
  | error e => contradiction
  | ok a => exact ⟨a, rfl, h⟩

/-- A walk over a list succeeds only if every step does; its result is then read off the steps. -/
lemma exists_map_of_mapM_eq_ok [Inhabited β] {f : α → Except ε β} {xs : List α} {ys : List β}
    (h : xs.mapM f = .ok ys) : ∃ g : α → β, (∀ x ∈ xs, f x = .ok (g x)) ∧ ys = xs.map g := by
  refine ⟨fun x => (f x).toOption.getD default, ?_⟩
  induction xs generalizing ys with
  | nil =>
    obtain rfl : [] = ys := Except.ok.inj h
    simp
  | cons x xs ih =>
    rw [List.mapM_cons] at h
    obtain ⟨y, hy, h⟩ := exists_of_bind_eq_ok h
    obtain ⟨zs, hzs, h⟩ := exists_of_bind_eq_ok h
    obtain rfl : y :: zs = ys := Except.ok.inj h
    obtain ⟨hmem, hmap⟩ := ih hzs
    refine ⟨fun z hz => ?_, ?_⟩
    · rcases List.mem_cons.mp hz with rfl | hz
      · simp [hy, Except.toOption]
      · exact hmem z hz
    · rw [List.map_cons, ← hmap]
      simp [hy, Except.toOption]

/-- A walk over a list succeeds if every step does. -/
lemma mapM_eq_ok {f : α → Except ε β} {g : α → β} {xs : List α} (h : ∀ x ∈ xs, f x = .ok (g x)) :
    xs.mapM f = .ok (xs.map g) := by
  induction xs with
  | nil => rfl
  | cons x xs ih =>
    rw [List.mapM_cons, h x List.mem_cons_self, ih fun y hy => h y (List.mem_cons_of_mem x hy)]
    rfl

/-- What every step of a chain over a list preserves holds after the chain if it held before. -/
lemma foldlM_invariant {f : β → α → Except ε β} (P : β → Prop)
    (hstep : ∀ {b x b'}, P b → f b x = .ok b' → P b') {xs : List α} {b b' : β} (hb : P b)
    (h : xs.foldlM f b = .ok b') : P b' := by
  induction xs generalizing b with
  | nil =>
    obtain rfl : b = b' := Except.ok.inj h
    exact hb
  | cons x xs ih =>
    rw [List.foldlM_cons] at h
    obtain ⟨c, hc, h⟩ := exists_of_bind_eq_ok h
    exact ih (hstep hb hc) h

/-- A chain of two steps fails in one of them. -/
lemma eq_error_or_exists_of_bind_eq_error {x : Except ε α} {f : α → Except ε β} {e : ε}
    (h : x >>= f = .error e) : x = .error e ∨ ∃ a, x = .ok a ∧ f a = .error e := by
  cases x with
  | error e' =>
    obtain rfl : e' = e := Except.error.inj h
    exact .inl rfl
  | ok a => exact .inr ⟨a, rfl, h⟩

/-- A walk over a list fails in one of its steps. -/
lemma exists_of_mapM_eq_error {f : α → Except ε β} {xs : List α} {e : ε}
    (h : xs.mapM f = .error e) : ∃ x ∈ xs, f x = .error e := by
  induction xs with
  | nil => contradiction
  | cons x xs ih =>
    rw [List.mapM_cons] at h
    rcases eq_error_or_exists_of_bind_eq_error h with hx | ⟨y, -, h⟩
    · exact ⟨x, List.mem_cons_self, hx⟩
    · rcases eq_error_or_exists_of_bind_eq_error h with hxs | ⟨ys, -, h⟩
      · obtain ⟨z, hz, hfz⟩ := ih hxs
        exact ⟨z, List.mem_cons_of_mem x hz, hfz⟩
      · contradiction

/-- A walk over a list depends on what the steps do on its members only. -/
lemma mapM_congr {f g : α → Except ε β} {xs : List α} (h : ∀ x ∈ xs, f x = g x) :
    xs.mapM f = xs.mapM g := by
  induction xs with
  | nil => rfl
  | cons x xs ih =>
    rw [List.mapM_cons, List.mapM_cons, h x List.mem_cons_self,
      ih fun y hy => h y (List.mem_cons_of_mem x hy)]

/-- A chain of two steps that never lack a value is the chain of their values. -/
lemma mk_some_bind {x : Except ε α} {f : α → ExceptT ε Option β} {g : α → Except ε β}
    (h : ∀ a, x = .ok a → f a = ExceptT.mk (some (g a))) :
    ExceptT.mk (some x) >>= f = ExceptT.mk (some (x >>= g)) := by
  cases x with
  | error e => rfl
  | ok a => exact h a rfl

/-- A walk whose steps never lack a value is the walk over the values. -/
lemma mapM_mk_some {f : α → ExceptT ε Option β} {g : α → Except ε β} {xs : List α}
    (h : ∀ x ∈ xs, f x = ExceptT.mk (some (g x))) :
    xs.mapM f = ExceptT.mk (some (xs.mapM g)) := by
  induction xs with
  | nil => rfl
  | cons x xs ih =>
    rw [List.mapM_cons, List.mapM_cons, h x List.mem_cons_self,
      ih fun y hy => h y (List.mem_cons_of_mem x hy)]
    cases g x with
    | error e => rfl
    | ok y => cases xs.mapM g <;> rfl

end Attempt

end SectionLedger
