import Mathlib
import SectionLedger.Proofs.Segmentation.Declarative
import SectionLedger.Proofs.Segmentation.Depth

/-!
# Cutting lines at another place

Where lines stand makes no difference to how they are cut: with more lines in front of them, the
same spans are found with higher numbers, or the same construct never closes (`nestedSpans_add`).
The pass counts lines from the offset, and reads a body by the distance of its span from the offset,
which is the same at every place (`Span.body_shift`).

So the spans that are found in a procedure are those of its body cut on its own
(`Bodies.filter_strictlyContains`).
-/

namespace SectionLedger

/-- The fault with its line counted from a higher number; no cut has another fault than a construct
that never closes. -/
def Fault.shift (k : ℕ) : Fault → Fault
  | .unterminated construct line => .unterminated construct (line + k)
  | fault => fault

/-- What a step finds with the lines in it counted from a higher number, or its fault so counted. -/
def shiftOutcome {α : Type} (k : ℕ) (shift : α → α) : Except Fault α → Except Fault α
  | .ok a => .ok (shift a)
  | .error fault => .error (fault.shift k)

/-! ### Steps at another place -/

section Outcome

variable {α β γ : Type} {k : ℕ} {shift : α → α} {shift' : β → β}

/-- A chain of two steps finds the same at another place if the second step does. -/
lemma shiftOutcome_bind {x : Except Fault α} {f f' : α → Except Fault β}
    (h : ∀ a, f' (shift a) = shiftOutcome k shift' (f a)) :
    shiftOutcome k shift x >>= f' = shiftOutcome k shift' (x >>= f) := by
  cases x with
  | error fault => rfl
  | ok a => exact h a

/-- A walk over a list finds the same at another place if every step does. -/
lemma mapM_shiftOutcome (f : γ → Except Fault β) (xs : List γ) :
    (xs.mapM fun x => shiftOutcome k shift' (f x)) =
      shiftOutcome k (List.map shift') (xs.mapM f) := by
  induction xs with
  | nil => rfl
  | cons x xs ih =>
    rw [List.mapM_cons, List.mapM_cons]
    refine shiftOutcome_bind fun y => ?_
    rw [ih]
    exact shiftOutcome_bind fun ys => rfl

end Outcome

/-! ### Spans at another place -/

namespace Span

/-- A span has a body at every place or at none. -/
lemma hasBody_shift (k : ℕ) (s : Span) : (s.shift k).hasBody = s.hasBody := by
  have hline : (s.first + k != s.last + k) = (s.first != s.last) := by
    rw [Bool.eq_iff_iff]
    simp
  rw [hasBody, hasBody, shift, hline]

/-- The body of a span is the same lines at every place. -/
lemma body_shift (k offset : ℕ) (s : Span) (lines : List String) :
    (s.shift k).body (offset + k) lines = s.body offset lines := by
  have hlength : s.last + k - 1 - (s.first + k) = s.last - 1 - s.first := by omega
  rw [body, body, shift, Nat.add_sub_add_right, hlength]

/-- The spans with bodies are the same at every place. -/
lemma filter_hasBody_map_shift (k : ℕ) (spans : List Span) :
    (spans.map (shift k)).filter hasBody = (spans.filter hasBody).map (shift k) := by
  rw [List.filter_map]
  exact congrArg _ (List.filter_congr fun s _ => s.hasBody_shift k)

end Span

/-! ### The passes at another place -/

/-- One pass finds the same at every place. -/
theorem flatSpans_add (number k : ℕ) (lines : List String) :
    flatSpans (number + k) lines =
      shiftOutcome k (List.map (Span.shift k)) (flatSpans number lines) := by
  induction number, lines using flatSpans.induct with
  | case1 number => rw [flatSpans_nil, flatSpans_nil]; rfl
  | case2 number line lines ho ih =>
    rw [flatSpans_cons_of_none ho, flatSpans_cons_of_none ho, ← ih, Nat.add_right_comm]
  | case3 number line lines o ho construct hr =>
    rw [flatSpans_cons_of_error ho hr, flatSpans_cons_of_error ho hr]
    rfl
  | case4 number line lines o ho n hr ih =>
    have hnumber : number + k + n + 1 = number + n + 1 + k := by omega
    rw [flatSpans_cons_of_ok ho hr, flatSpans_cons_of_ok ho hr, hnumber, ih, Nat.add_right_comm]
    cases flatSpans (number + n + 1) (lines.drop n) <;> rfl

/-- The nested pass finds the same at every place. -/
theorem nestedSpans_add (depth offset k : ℕ) (lines : List String) :
    nestedSpans depth (offset + k) lines =
      shiftOutcome k (List.map (Span.shift k)) (nestedSpans depth offset lines) := by
  induction depth generalizing offset lines with
  | zero => rw [nestedSpans, nestedSpans, Nat.add_right_comm, flatSpans_add]
  | succ depth ih =>
    rw [nestedSpans, nestedSpans, Nat.add_right_comm, flatSpans_add]
    refine shiftOutcome_bind fun spans => ?_
    -- a body has its place from the span, which is as much higher as the lines are
    have hbodies : ((spans.map (Span.shift k)).filter Span.hasBody).mapM
          (fun s => nestedSpans depth s.first (s.body (offset + k) lines)) =
        shiftOutcome k (List.map (List.map (Span.shift k)))
          ((spans.filter Span.hasBody).mapM fun s =>
            nestedSpans depth s.first (s.body offset lines)) := by
      rw [Span.filter_hasBody_map_shift, List.mapM_map, ← mapM_shiftOutcome]
      refine mapM_congr fun s _ => ?_
      rw [Function.comp_apply, Span.body_shift]
      exact ih s.first (s.body offset lines)
    rw [hbodies]
    refine shiftOutcome_bind fun blocks => ?_
    rw [← List.map_flatten, ← List.map_append]
    rfl

/-! ### The spans in one body -/

/-- If only one member of a list contributes, all members together give what that one does. -/
lemma flatMap_eq_of_nodup {α β : Type} {f : α → List β} {xs : List α} {a : α} (hnodup : xs.Nodup)
    (ha : a ∈ xs) (h : ∀ b ∈ xs, b ≠ a → f b = []) : xs.flatMap f = f a := by
  induction xs with
  | nil => exact absurd ha List.not_mem_nil
  | cons x xs ih =>
    obtain ⟨hx, hxs⟩ := List.nodup_cons.mp hnodup
    obtain ⟨hfirst, hrest⟩ := List.forall_mem_cons.mp h
    rcases List.mem_cons.mp ha with rfl | ha
    · have hnone : xs.flatMap f = [] :=
        List.flatMap_eq_nil_iff.mpr fun b hb => hrest b hb (ne_of_mem_of_not_mem hb hx)
      rw [List.flatMap_cons, hnone, List.append_nil]
    · rw [List.flatMap_cons, hfirst (ne_of_mem_of_not_mem ha hx).symm, List.nil_append,
        ih hxs ha hrest]

/-- What lies strictly inside a span of the outermost pass is what is found in its body. -/
lemma Bodies.filter_strictlyContains {depth offset count : ℕ} {flat procedures : List Span}
    {inner : Span → List Span} (h : Bodies depth offset count flat procedures inner) {p : Span}
    (hp : p ∈ procedures) :
    (flat ++ procedures.flatMap inner).filter (fun t => p.strictlyContains t.toInterval) =
      inner p := by
  have hpflat : p ∈ flat := h.sublist.subset hp
  have hnodup : procedures.Nodup := (LaminarCut.ofInOrder h.flat_inOrder).nodup.sublist h.sublist
  have hflat : flat.filter (fun t => p.strictlyContains t.toInterval) = [] :=
    List.filter_eq_nil_iff.mpr fun t ht =>
      LaminarCut.not_strictlyContains_of_inOrder h.flat_inOrder hpflat ht
  have hself : (inner p).filter (fun t => p.strictlyContains t.toInterval) = inner p :=
    List.filter_eq_self.mpr fun t ht => (h.laminar p hp).strictlyContains_of_mem ht
  have hother : ∀ q ∈ procedures, q ≠ p →
      (inner q).filter (fun t => p.strictlyContains t.toInterval) = [] := by
    intro q hq hqp
    refine List.filter_eq_nil_iff.mpr fun t ht hpt => ?_
    have hall := List.mem_append_left (procedures.flatMap inner) (h.sublist.subset hq)
    rcases h.eq_or_mem_of_strictlyContains (List.mem_append_left _ hpflat) hq ht hpt with rfl | hpq
    · exact hqp rfl
    · exact h.not_strictlyContains_flat hall hpflat ((h.laminar q hq).strictlyContains_of_mem hpq)
  rw [List.filter_append, hflat, List.nil_append, List.filter_flatMap,
    flatMap_eq_of_nodup hnodup hp hother, hself]

/-- What lies strictly inside a procedure that no other span lies around is what is found in its
body at its place, one level less deep. -/
lemma exists_inner_of_nestedSpans {depth offset : ℕ} {lines : List String} {spans : List Span}
    {p : Span} (h : nestedSpans (depth + 1) offset lines = .ok spans) (hp : p ∈ spans)
    (hbody : p.hasBody = true) (houter : ∀ s ∈ spans, s.strictlyContains p.toInterval = false) :
    nestedSpans depth p.first (p.body offset lines) =
      .ok (spans.filter fun s => p.strictlyContains s.toInterval) := by
  obtain ⟨flat, inner, hflat, hinner, rfl⟩ := exists_bodies_of_nestedSpans h
  have hbodies := Bodies.of_flatSpans hflat fun q hq => nestedSpans_laminarCut (hinner q hq)
  have hpflat : p ∈ flat := by
    refine (List.mem_append.mp hp).resolve_right fun hmem => ?_
    -- around a span of a body lies the procedure with the body
    obtain ⟨q, hq, hpq⟩ := List.mem_flatMap.mp hmem
    have hqp := (hbodies.laminar q hq).strictlyContains_of_mem hpq
    rw [houter q (List.mem_append_left _ (hbodies.sublist.subset hq))] at hqp
    contradiction
  have hproc : p ∈ flat.filter Span.hasBody := List.mem_filter.mpr ⟨hpflat, hbody⟩
  rw [hbodies.filter_strictlyContains hproc, hinner p hproc]

/-- **Where lines stand makes no difference.**  With more lines in front, the nested pass finds the
same spans in the same order, each as many lines further down, or the same construct that never
closes.  So what lies in a procedure of several lines with no span around it is what the body of the
procedure is cut into on its own, one level less deep, each span further down by the first line of
the procedure. -/
theorem nestedSpans_translates (depth k : ℕ) (lines : List String) :
    (∀ spans, nestedSpans depth 0 lines = .ok spans →
      nestedSpans depth k lines = .ok (spans.map (Span.shift k))) ∧
    (∀ fault, nestedSpans depth 0 lines = .error fault → ∃ construct line,
      fault = .unterminated construct line ∧
      nestedSpans depth k lines = .error (.unterminated construct (line + k))) ∧
    ∀ spans, nestedSpans (depth + 1) k lines = .ok spans → ∀ p ∈ spans, p.hasBody = true →
      (∀ s ∈ spans, s.strictlyContains p.toInterval = false) →
      ∃ inner, nestedSpans depth 0 (p.body k lines) = .ok inner ∧
        spans.filter (fun s => p.strictlyContains s.toInterval) =
          inner.map (Span.shift p.first) := by
  have hplace : ∀ (k : ℕ) (lines : List String), nestedSpans depth k lines =
      shiftOutcome k (List.map (Span.shift k)) (nestedSpans depth 0 lines) := by
    intro k lines
    rw [← nestedSpans_add, Nat.zero_add]
  refine ⟨fun spans h => ?_, fun fault h => ?_, fun spans h p hp hbody houter => ?_⟩
  · rw [hplace, h]
    rfl
  · obtain ⟨construct, line, rfl⟩ := exists_unterminated_of_nestedSpans h
    refine ⟨construct, line, rfl, ?_⟩
    rw [hplace, h]
    rfl
  · have hinner := exists_inner_of_nestedSpans h hp hbody houter
    rw [hplace p.first] at hinner
    cases halone : nestedSpans depth 0 (p.body k lines) with
    | error fault =>
      rw [halone] at hinner
      contradiction
    | ok inner =>
      rw [halone] at hinner
      exact ⟨inner, rfl, (Except.ok.inj hinner).symm⟩

/-- Ten lines further down, a procedure in a procedure is found with both intervals moved, and so is
the comment that never closes in a body.  The inner procedure is what the outer one's body is cut
into on its own. -/
theorem nestedSpans_translates_of_inner_procedure :
    let lines := ["int outer(void) \x7b", "  int inner(void) \x7b", "    // deep", "  \x7d", "\x7d"]
    let outer : Span := ⟨⟨1, 5⟩, Kind.procedure⟩
    nestedSpans 1 10 lines = .ok [⟨⟨11, 15⟩, Kind.procedure⟩, ⟨⟨12, 14⟩, Kind.procedure⟩] ∧
      nestedSpans 1 10 ["int f() \x7b", "/* a", "\x7d"] =
        .error (.unterminated .blockComment 12) ∧
      ∃ inner, nestedSpans 0 0 (outer.body 0 lines) = .ok inner ∧
        [⟨⟨2, 4⟩, Kind.procedure⟩] = inner.map (Span.shift 1) := by
  intro lines outer
  have hlines : nestedSpans 1 0 lines = .ok [outer, ⟨⟨2, 4⟩, Kind.procedure⟩] := by decide +kernel
  have hopen : nestedSpans 1 0 ["int f() \x7b", "/* a", "\x7d"] =
      .error (.unterminated .blockComment 2) := by decide +kernel
  obtain ⟨construct, line, hfault, hmoved⟩ := (nestedSpans_translates 1 10 _).2.1 _ hopen
  obtain ⟨rfl, rfl⟩ := Fault.unterminated.inj hfault
  exact ⟨(nestedSpans_translates 1 10 lines).1 _ hlines, hmoved,
    (nestedSpans_translates 0 0 lines).2.2 _ hlines outer (by decide) (by decide) (by decide)⟩

end SectionLedger
