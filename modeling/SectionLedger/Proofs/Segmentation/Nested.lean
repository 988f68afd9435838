import Mathlib
import SectionLedger.Proofs.Attempt
import SectionLedger.Proofs.Segmentation.Flat

/-!
# The nested pass is laminar

The nested pass cuts the bodies of procedures again.  Whatever it returns is a `LaminarCut`: spans
within the lines that share no end, are pairwise apart or strictly nested, nest only in procedures
and not deeper than asked for.  The proof is one induction on the depth: `LaminarCut.ofInOrder` for
a single pass, and `LaminarCut.nest` for spans with laminar cuts in some of their bodies.

The body of a procedure is a range of the lines given by two positions.  `checkedSpans` is the pass
that gives up on a position below zero, past the last line or out of order; it never does
(`run_checkedSpans`).
-/

namespace SectionLedger

/-- Spans among the `count` lines after `offset` others whose intervals share no end, are pairwise
apart or strictly nested, and nest in procedures only, at most `depth` times in each other. -/
structure LaminarCut (depth offset count : ℕ) (spans : List Span) : Prop where
  /-- Every span is a nonempty range of the lines. -/
  within : ∀ s ∈ spans, offset + 1 ≤ s.first ∧ s.first ≤ s.last ∧ s.last ≤ offset + count
  /-- Every span is of one of the five built-in kinds. -/
  builtin : ∀ s ∈ spans, s.kind ∈ Kind.builtin
  /-- Any two differ at both ends, and are apart or one lies strictly inside the other. -/
  compatible : spans.Pairwise fun s t => Interval.Compatible s.toInterval t.toInterval
  /-- Only a procedure has other spans inside. -/
  kind_of_strictlyContains : ∀ s ∈ spans, ∀ t ∈ spans,
    s.strictlyContains t.toInterval = true → s.kind = Kind.procedure
  /-- A chain of spans each inside the one before has at most one more than `depth`. -/
  length_chain_le : ∀ chain : List Span, (∀ s ∈ chain, s ∈ spans) →
    chain.IsChain (fun s t => s.strictlyContains t.toInterval = true) → chain.length ≤ depth + 1

/-! ### Bodies by position -/

namespace Span

/-- The lines of a body read by position, if no subtraction goes below zero and the positions are in
order and not past the last line. -/
def bodySlice? (s : Span) (offset : ℕ) (lines : List String) : Option (List String) :=
  if offset ≤ s.first ∧ offset + 1 ≤ s.last ∧ s.first - offset ≤ s.last - offset - 1 ∧
      s.last - offset - 1 ≤ lines.length then
    some (lines.extract (s.first - offset) (s.last - offset - 1))
  else none

/-- A procedure with a body ends on a later line than it begins. -/
lemma hasBody_iff {s : Span} : s.hasBody = true ↔ s.kind = Kind.procedure ∧ s.first ≠ s.last := by
  simp [hasBody]

/-- The body of a span of several lines can be read by position. -/
lemma bodySlice?_eq_body {s : Span} {offset : ℕ} {lines : List String}
    (h1 : offset + 1 ≤ s.first) (h2 : s.first < s.last) (h3 : s.last ≤ offset + lines.length) :
    s.bodySlice? offset lines = some (s.body offset lines) := by
  have hlen : s.last - offset - 1 - (s.first - offset) = s.last - 1 - s.first := by omega
  rw [bodySlice?, if_pos (by omega), List.extract_eq_take_drop, hlen, body]

/-- The body of a span has no more lines than there are strictly between its first and last. -/
lemma length_body_le (s : Span) (offset : ℕ) (lines : List String) :
    (s.body offset lines).length ≤ s.last - 1 - s.first := by
  rw [body, List.length_take]
  exact Nat.min_le_left _ _

end Span

/-- The nested pass that gives up on a body that cannot be read by position. -/
def checkedSpans : (depth offset : ℕ) → List String → ExceptT Fault Option (List Span)
  | 0, offset, lines => ExceptT.mk (some (flatSpans (offset + 1) lines))
  | depth + 1, offset, lines => do
    let spans ← ExceptT.mk (some (flatSpans (offset + 1) lines))
    let inner ← (spans.filter Span.hasBody).mapM fun s => do
      let body ← ExceptT.lift (s.bodySlice? offset lines)
      checkedSpans depth s.first body
    return spans ++ inner.flatten

/-- A procedure with a body that one pass finds has positions to read the body by. -/
lemma bodySlice?_of_mem_flatSpans {offset : ℕ} {lines : List String} {spans : List Span}
    (h : flatSpans (offset + 1) lines = .ok spans) {s : Span}
    (hs : s ∈ spans.filter Span.hasBody) :
    s.bodySlice? offset lines = some (s.body offset lines) := by
  obtain ⟨hmem, hbody⟩ := List.mem_filter.mp hs
  obtain ⟨h1, h2, h3⟩ := (flatSpans_inOrder h).within s hmem
  have hne : s.first ≠ s.last := (Span.hasBody_iff.mp hbody).2
  exact Span.bodySlice?_eq_body h1 (by omega) (by omega)

/-- The nested pass never meets a body that cannot be read by position. -/
theorem run_checkedSpans (depth offset : ℕ) (lines : List String) :
    (checkedSpans depth offset lines).run = some (nestedSpans depth offset lines) := by
  induction depth generalizing offset lines with
  | zero => rfl
  | succ depth ih =>
    rw [checkedSpans, nestedSpans]
    refine congrArg ExceptT.run (mk_some_bind fun spans hflat => ?_)
    have hstep : ∀ s ∈ spans.filter Span.hasBody,
        (do let body ← ExceptT.lift (s.bodySlice? offset lines)
            checkedSpans depth s.first body) =
          ExceptT.mk (some (nestedSpans depth s.first (s.body offset lines))) := by
      intro s hs
      rw [bodySlice?_of_mem_flatSpans hflat hs]
      exact ExceptT.ext (ih s.first (s.body offset lines))
    rw [mapM_mk_some hstep]
    exact mk_some_bind fun inner _ => rfl

/-! ### One level -/

namespace LaminarCut

variable {depth offset count : ℕ} {flat : List Span}

/-- Spans of one pass are apart, so none lies inside another. -/
lemma not_strictlyContains_of_inOrder {number : ℕ} (h : InOrder number count flat) {s t : Span}
    (hs : s ∈ flat) (ht : t ∈ flat) : ¬ s.strictlyContains t.toInterval = true := by
  intro hst
  rw [Interval.strictlyContains_iff] at hst
  have hs' := h.within s hs
  have ht' := h.within t ht
  rcases h.eq_or_apart hs ht with rfl | hapart | hapart <;> omega

/-- The spans of one pass are a laminar cut without depth. -/
lemma ofInOrder (h : InOrder (offset + 1) count flat) : LaminarCut 0 offset count flat where
  within s hs := by
    obtain ⟨h1, h2, h3⟩ := h.within s hs
    omega
  builtin := h.builtin
  compatible := by
    refine h.ordered.imp_of_mem fun {s t} hs ht hst => ?_
    have hs' := h.within s hs
    have ht' := h.within t ht
    exact ⟨by omega, by omega, .inl (.inl hst)⟩
  kind_of_strictlyContains s hs t ht hst :=
    absurd hst (not_strictlyContains_of_inOrder h hs ht)
  length_chain_le chain hmem hchain := by
    match chain with
    | [] => exact Nat.zero_le _
    | [s] => exact le_rfl
    | s :: t :: rest =>
      have hst : s.strictlyContains t.toInterval = true := (List.isChain_cons_cons.mp hchain).1
      exact absurd hst (not_strictlyContains_of_inOrder h (hmem s (by simp)) (hmem t (by simp)))

/-- A laminar cut of some lines is one of more lines. -/
lemma mono {count' : ℕ} (h : LaminarCut depth offset count flat) (hc : count ≤ count') :
    LaminarCut depth offset count' flat where
  within s hs := by
    obtain ⟨h1, h2, h3⟩ := h.within s hs
    omega
  builtin := h.builtin
  compatible := h.compatible
  kind_of_strictlyContains := h.kind_of_strictlyContains
  length_chain_le := h.length_chain_le

end LaminarCut

/-! ### From one level to the next -/

section Nest

variable {depth offset count : ℕ} {flat procedures : List Span} {inner : Span → List Span}

/-- Spans found in bodies lie strictly inside the procedure with the body. -/
lemma LaminarCut.strictlyContains_of_mem {p t : Span} {block : List Span}
    (h : LaminarCut depth p.first (p.last - 1 - p.first) block) (ht : t ∈ block) :
    p.strictlyContains t.toInterval = true := by
  have ht' := h.within t ht
  rw [Interval.strictlyContains_iff]
  omega

/-- The spans of one pass, some procedures among them, and a laminar cut of each procedure's
body. -/
structure Bodies (depth offset count : ℕ) (flat procedures : List Span)
    (inner : Span → List Span) : Prop where
  flat_inOrder : InOrder (offset + 1) count flat
  sublist : procedures.Sublist flat
  kind_eq : ∀ p ∈ procedures, p.kind = Kind.procedure
  laminar : ∀ p ∈ procedures, LaminarCut depth p.first (p.last - 1 - p.first) (inner p)

namespace Bodies

/-- What lies inside a span of one pass and what lies inside another are apart. -/
lemma apart_of_ne (h : Bodies depth offset count flat procedures inner) {p q s t : Span}
    (hp : p ∈ flat) (hq : q ∈ flat) (hpq : p ≠ q)
    (hs : p.first ≤ s.first ∧ s.last ≤ p.last) (ht : q.first ≤ t.first ∧ t.last ≤ q.last) :
    Interval.Apart s.toInterval t.toInterval := by
  rcases h.flat_inOrder.eq_or_apart hp hq with heq | hapart | hapart
  · exact absurd heq hpq
  · exact .inl (by omega)
  · exact .inr (by omega)

/-- Nothing has a span of the outer pass strictly inside. -/
lemma not_strictlyContains_flat (h : Bodies depth offset count flat procedures inner) {s t : Span}
    (hs : s ∈ flat ++ procedures.flatMap inner) (ht : t ∈ flat) :
    ¬ s.strictlyContains t.toInterval = true := by
  rcases List.mem_append.mp hs with hs | hs
  · exact LaminarCut.not_strictlyContains_of_inOrder h.flat_inOrder hs ht
  · obtain ⟨p, hp, hs⟩ := List.mem_flatMap.mp hs
    intro hst
    have hps := (h.laminar p hp).strictlyContains_of_mem hs
    refine LaminarCut.not_strictlyContains_of_inOrder h.flat_inOrder (h.sublist.subset hp) ht ?_
    rw [Interval.strictlyContains_iff] at hps hst ⊢
    omega

/-- What has a span of a body strictly inside is the procedure with the body, or in the body. -/
lemma eq_or_mem_of_strictlyContains (h : Bodies depth offset count flat procedures inner)
    {p s t : Span} (hs : s ∈ flat ++ procedures.flatMap inner) (hp : p ∈ procedures)
    (ht : t ∈ inner p) (hst : s.strictlyContains t.toInterval = true) : s = p ∨ s ∈ inner p := by
  have hpt := (h.laminar p hp).strictlyContains_of_mem ht
  have ht' := (h.laminar p hp).within t ht
  rw [Interval.strictlyContains_iff] at hst hpt
  rcases List.mem_append.mp hs with hs | hs
  · by_cases hsp : s = p
    · exact .inl hsp
    · have hapart := h.apart_of_ne hs (h.sublist.subset hp) hsp (s := t) (t := t)
        (by omega) (by omega)
      rcases hapart with hapart | hapart <;> omega
  · obtain ⟨q, hq, hs⟩ := List.mem_flatMap.mp hs
    by_cases hqp : q = p
    · exact .inr (hqp ▸ hs)
    · have hqs := (h.laminar q hq).strictlyContains_of_mem hs
      rw [Interval.strictlyContains_iff] at hqs
      have hapart := h.apart_of_ne (h.sublist.subset hq) (h.sublist.subset hp) hqp (s := t) (t := t)
        (by omega) (by omega)
      rcases hapart with hapart | hapart <;> omega

/-- A span of one pass and a span of a body are apart or strictly nested. -/
lemma compatible_of_mem_inner (h : Bodies depth offset count flat procedures inner) {p s t : Span}
    (hs : s ∈ flat) (hp : p ∈ procedures) (ht : t ∈ inner p) :
    Interval.Compatible s.toInterval t.toInterval := by
  have hs' := h.flat_inOrder.within s hs
  have ht' := (h.laminar p hp).within t ht
  have hpt := (h.laminar p hp).strictlyContains_of_mem ht
  by_cases hsp : s = p
  · subst hsp
    refine ⟨?_, ?_, .inr (.inl hpt)⟩ <;> omega
  · rw [Interval.strictlyContains_iff] at hpt
    have hapart := h.apart_of_ne hs (h.sublist.subset hp) hsp (s := s) (t := t)
      (by omega) (by omega)
    refine ⟨?_, ?_, .inl hapart⟩ <;> rcases hapart with hapart | hapart <;> omega

/-- Spans of two different bodies are apart. -/
lemma compatible_of_mem_inner_of_lt (h : Bodies depth offset count flat procedures inner)
    {p q s t : Span} (hp : p ∈ procedures) (hq : q ∈ procedures) (hpq : p.last < q.first)
    (hs : s ∈ inner p) (ht : t ∈ inner q) : Interval.Compatible s.toInterval t.toInterval := by
  have hs' := (h.laminar p hp).within s hs
  have ht' := (h.laminar q hq).within t ht
  have hps := (h.laminar p hp).strictlyContains_of_mem hs
  have hqt := (h.laminar q hq).strictlyContains_of_mem ht
  rw [Interval.strictlyContains_iff] at hps hqt
  exact ⟨by omega, by omega, .inl (.inl (by omega))⟩

/-- All spans of the two levels are pairwise apart or strictly nested. -/
lemma pairwise_compatible (h : Bodies depth offset count flat procedures inner) :
    (flat ++ procedures.flatMap inner).Pairwise fun s t =>
      Interval.Compatible s.toInterval t.toInterval := by
  refine List.pairwise_append.mpr ⟨?_, ?_, fun s hs t ht => ?_⟩
  · exact (LaminarCut.ofInOrder h.flat_inOrder).compatible
  · refine List.pairwise_flatMap.mpr ⟨fun p hp => (h.laminar p hp).compatible, ?_⟩
    have hordered := h.flat_inOrder.ordered.sublist h.sublist
    refine hordered.imp_of_mem fun {p q} hp hq hpq s hs t ht => ?_
    exact h.compatible_of_mem_inner_of_lt hp hq hpq hs ht
  · obtain ⟨p, hp, ht⟩ := List.mem_flatMap.mp ht
    exact h.compatible_of_mem_inner hs hp ht

/-- What a span of one pass has strictly inside lies in its own body. -/
lemma mem_inner_of_strictlyContains (h : Bodies depth offset count flat procedures inner)
    {s t : Span} (hs : s ∈ flat) (ht : t ∈ flat ++ procedures.flatMap inner)
    (hst : s.strictlyContains t.toInterval = true) : s ∈ procedures ∧ t ∈ inner s := by
  rcases List.mem_append.mp ht with ht | ht
  · exact absurd hst (h.not_strictlyContains_flat (List.mem_append_left _ hs) ht)
  · obtain ⟨p, hp, ht⟩ := List.mem_flatMap.mp ht
    rcases h.eq_or_mem_of_strictlyContains (List.mem_append_left _ hs) hp ht hst with rfl | hsp
    · exact ⟨hp, ht⟩
    · have hps := (h.laminar p hp).strictlyContains_of_mem hsp
      exact absurd hps (h.not_strictlyContains_flat
        (List.mem_append_left _ (h.sublist.subset hp)) hs)

/-- What a span of a body has strictly inside lies in the same body. -/
lemma mem_inner_of_strictlyContains_inner (h : Bodies depth offset count flat procedures inner)
    {p s t : Span} (hp : p ∈ procedures) (hs : s ∈ inner p)
    (ht : t ∈ flat ++ procedures.flatMap inner) (hst : s.strictlyContains t.toInterval = true) :
    t ∈ inner p := by
  have hps := (h.laminar p hp).strictlyContains_of_mem hs
  have hpt : p.strictlyContains t.toInterval = true := by
    rw [Interval.strictlyContains_iff] at hps hst ⊢
    omega
  exact (h.mem_inner_of_strictlyContains (h.sublist.subset hp) ht hpt).2

/-- A chain of spans of the two levels has at most one more than a chain in a body. -/
lemma length_chain_le (h : Bodies depth offset count flat procedures inner) {chain : List Span}
    (hmem : ∀ s ∈ chain, s ∈ flat ++ procedures.flatMap inner)
    (hchain : chain.IsChain fun s t => s.strictlyContains t.toInterval = true) :
    chain.length ≤ depth + 1 + 1 := by
  have htrans : ∀ s t u : Span, s.strictlyContains t.toInterval = true →
      t.strictlyContains u.toInterval = true → s.strictlyContains u.toInterval = true := by
    intro s t u hst htu
    rw [Interval.strictlyContains_iff] at hst htu ⊢
    omega
  have htransInst : IsTrans Span fun s t => s.strictlyContains t.toInterval = true := ⟨htrans⟩
  cases chain with
  | nil => exact Nat.zero_le _
  | cons s rest =>
    have hinside : ∀ t ∈ rest, s.strictlyContains t.toInterval = true :=
      (List.pairwise_cons.mp (List.isChain_iff_pairwise.mp hchain)).1
    have hrest : ∀ t ∈ rest, t ∈ flat ++ procedures.flatMap inner := fun t ht =>
      hmem t (List.mem_cons_of_mem s ht)
    rcases List.mem_append.mp (hmem s List.mem_cons_self) with hs | hs
    · -- the rest of the chain is one of the body of `s`
      cases rest with
      | nil => simp
      | cons t rest =>
        have hproc : s ∈ procedures :=
          (h.mem_inner_of_strictlyContains hs (hrest t List.mem_cons_self)
            (hinside t List.mem_cons_self)).1
        have hle := (h.laminar s hproc).length_chain_le (t :: rest)
          (fun u hu => (h.mem_inner_of_strictlyContains hs (hrest u hu) (hinside u hu)).2)
          hchain.tail
        simp only [List.length_cons] at hle ⊢
        omega
    · -- the whole chain is one of the body that `s` lies in
      obtain ⟨p, hp, hs⟩ := List.mem_flatMap.mp hs
      have hle := (h.laminar p hp).length_chain_le (s :: rest)
        (fun u hu => by
          rcases List.mem_cons.mp hu with rfl | hu
          · exact hs
          · exact h.mem_inner_of_strictlyContains_inner hp hs (hrest u hu) (hinside u hu))
        hchain
      omega

/-- The spans of one pass with laminar cuts of bodies are a laminar cut one level deeper. -/
theorem laminarCut (h : Bodies depth offset count flat procedures inner) :
    LaminarCut (depth + 1) offset count (flat ++ procedures.flatMap inner) where
  within s hs := by
    rcases List.mem_append.mp hs with hs | hs
    · exact (LaminarCut.ofInOrder h.flat_inOrder).within s hs
    · obtain ⟨p, hp, hs⟩ := List.mem_flatMap.mp hs
      have hp' := h.flat_inOrder.within p (h.sublist.subset hp)
      have hs' := (h.laminar p hp).within s hs
      omega
  builtin s hs := by
    rcases List.mem_append.mp hs with hs | hs
    · exact h.flat_inOrder.builtin s hs
    · obtain ⟨p, hp, hs⟩ := List.mem_flatMap.mp hs
      exact (h.laminar p hp).builtin s hs
  compatible := h.pairwise_compatible
  kind_of_strictlyContains s hs t ht hst := by
    rcases List.mem_append.mp hs with hs | hs
    · exact h.kind_eq s (h.mem_inner_of_strictlyContains hs ht hst).1
    · obtain ⟨p, hp, hs⟩ := List.mem_flatMap.mp hs
      have ht' := h.mem_inner_of_strictlyContains_inner hp hs ht hst
      exact (h.laminar p hp).kind_of_strictlyContains s hs t ht' hst
  length_chain_le chain hmem hchain := h.length_chain_le hmem hchain

end Bodies

end Nest

/-! ### The nested pass -/

/-- A successful nested pass is a successful flat pass, and one in every body. -/
lemma exists_bodies_of_nestedSpans {depth offset : ℕ} {lines : List String} {spans : List Span}
    (h : nestedSpans (depth + 1) offset lines = .ok spans) :
    ∃ flat inner, flatSpans (offset + 1) lines = .ok flat ∧
      (∀ p ∈ flat.filter Span.hasBody,
        nestedSpans depth p.first (p.body offset lines) = .ok (inner p)) ∧
      spans = flat ++ (flat.filter Span.hasBody).flatMap inner := by
  rw [nestedSpans] at h
  obtain ⟨flat, hflat, h⟩ := exists_of_bind_eq_ok h
  obtain ⟨blocks, hblocks, h⟩ := exists_of_bind_eq_ok h
  obtain ⟨inner, hinner, rfl⟩ := exists_map_of_mapM_eq_ok hblocks
  refine ⟨flat, inner, hflat, hinner, ?_⟩
  rw [List.flatMap_def]
  exact (Except.ok.inj h).symm

/-- Laminar cuts of the bodies that one pass finds. -/
lemma Bodies.of_flatSpans {depth offset : ℕ} {lines : List String} {flat : List Span}
    {inner : Span → List Span} (hflat : flatSpans (offset + 1) lines = .ok flat)
    (hinner : ∀ p ∈ flat.filter Span.hasBody,
      LaminarCut depth p.first (p.body offset lines).length (inner p)) :
    Bodies depth offset lines.length flat (flat.filter Span.hasBody) inner where
  flat_inOrder := flatSpans_inOrder hflat
  sublist := List.filter_sublist
  kind_eq _ hp := (Span.hasBody_iff.mp (List.mem_filter.mp hp).2).1
  laminar p hp := (hinner p hp).mono (p.length_body_le offset lines)

/-- Whatever the nested pass returns is a laminar cut of its lines, no deeper than asked for. -/
theorem nestedSpans_laminarCut {depth offset : ℕ} {lines : List String} {spans : List Span}
    (h : nestedSpans depth offset lines = .ok spans) :
    LaminarCut depth offset lines.length spans := by
  induction depth generalizing offset lines spans with
  | zero => exact LaminarCut.ofInOrder (flatSpans_inOrder h)
  | succ depth ih =>
    obtain ⟨flat, inner, hflat, hinner, rfl⟩ := exists_bodies_of_nestedSpans h
    exact (Bodies.of_flatSpans hflat fun p hp => ih (hinner p hp)).laminarCut

/-- A nested pass that fails names an unterminated construct. -/
theorem exists_unterminated_of_nestedSpans {depth offset : ℕ} {lines : List String} {fault : Fault}
    (h : nestedSpans depth offset lines = .error fault) :
    ∃ construct line, fault = .unterminated construct line := by
  induction depth generalizing offset lines with
  | zero => exact exists_unterminated_of_flatSpans h
  | succ depth ih =>
    rw [nestedSpans] at h
    rcases eq_error_or_exists_of_bind_eq_error h with hflat | ⟨flat, -, h⟩
    · exact exists_unterminated_of_flatSpans hflat
    · rcases eq_error_or_exists_of_bind_eq_error h with hinner | ⟨inner, -, h⟩
      · obtain ⟨p, -, hp⟩ := exists_of_mapM_eq_error hinner
        exact ih hp
      · contradiction

/-- **The nested pass is laminar.**  Whatever the nested pass returns is a laminar cut of the lines,
no deeper than asked for, and every body that it reads on the way is a range of positions in order
and within the lines. -/
theorem nestedSpans_laminar (depth offset : ℕ) (lines : List String) :
    (∀ spans, nestedSpans depth offset lines = .ok spans →
      LaminarCut depth offset lines.length spans) ∧
    (checkedSpans depth offset lines).run = some (nestedSpans depth offset lines) :=
  ⟨fun _ h => nestedSpans_laminarCut h, run_checkedSpans depth offset lines⟩

/-- A comment in a procedure in a procedure is a laminar cut of depth two. -/
theorem laminarCut_of_comment_in_inner_procedure :
    nestedSpans 2 10
        ["int outer(void) \x7b", "  int inner(void) \x7b", "    // deep", "  \x7d", "\x7d"] =
      .ok [⟨⟨11, 15⟩, Kind.procedure⟩, ⟨⟨12, 14⟩, Kind.procedure⟩, ⟨⟨13, 13⟩, Kind.comment⟩] ∧
    LaminarCut 2 10 5
      [⟨⟨11, 15⟩, Kind.procedure⟩, ⟨⟨12, 14⟩, Kind.procedure⟩, ⟨⟨13, 13⟩, Kind.comment⟩] := by
  have h : nestedSpans 2 10
      ["int outer(void) \x7b", "  int inner(void) \x7b", "    // deep", "  \x7d", "\x7d"] =
        .ok [⟨⟨11, 15⟩, Kind.procedure⟩, ⟨⟨12, 14⟩, Kind.procedure⟩, ⟨⟨13, 13⟩, Kind.comment⟩] := by
    decide +kernel
  exact ⟨h, (nestedSpans_laminar 2 10 _).1 _ h⟩

end SectionLedger
