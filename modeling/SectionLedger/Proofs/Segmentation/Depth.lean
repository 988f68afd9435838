import Mathlib
import SectionLedger.Proofs.Segmentation.Nested

/-!
# Depth of the nested pass and depth of spans

How deep the nested pass cuts bodies is the depth at which the spans that it finds lie in each
other.  A span of the outermost pass has no span around it, and a span of a body has the procedure
with the body around it and what is around it in the body (`Bodies.depthIn_flat`,
`Bodies.depthIn_inner`).  So a pass that is less deep finds what a deeper one finds but for the
spans that lie too deep, in the same order (`nestedSpans_of_le`).

A body has two lines less than what it is the body of, so half as much depth as there are lines is
enough (`nestedSpans_succ_of_length_le`).
-/

namespace SectionLedger

/-- How many of some spans lie around a span. -/
def Span.depthIn (spans : List Span) (t : Span) : ℕ :=
  spans.countP fun s => s.strictlyContains t.toInterval

section Depth

variable {depth offset count : ℕ} {flat procedures : List Span} {inner : Span → List Span}

/-- A laminar cut has no span twice. -/
lemma LaminarCut.nodup {spans : List Span} (h : LaminarCut depth offset count spans) :
    spans.Nodup :=
  h.compatible.imp fun {s t} hst (heq : s = t) => hst.1 (heq ▸ rfl)

namespace Bodies

/-- No span lies around a span of the outermost pass. -/
lemma depthIn_flat (h : Bodies depth offset count flat procedures inner) {t : Span}
    (ht : t ∈ flat) : t.depthIn (flat ++ procedures.flatMap inner) = 0 :=
  List.countP_eq_zero.mpr fun _ hs => h.not_strictlyContains_flat hs ht

/-- Around a span of a body lie the procedure with the body and the spans of the body around it. -/
lemma depthIn_inner (h : Bodies depth offset count flat procedures inner) {p t : Span}
    (hp : p ∈ procedures) (ht : t ∈ inner p) :
    t.depthIn (flat ++ procedures.flatMap inner) = t.depthIn (inner p) + 1 := by
  have hself : ∀ s ∈ inner p, s ≠ p := by
    rintro s hs rfl
    have hinside := (h.laminar s hp).strictlyContains_of_mem hs
    rw [Interval.strictlyContains_iff] at hinside
    omega
  -- both sides count spans without repetition, and the same ones
  have hperm : ((flat ++ procedures.flatMap inner).filter
        fun s => s.strictlyContains t.toInterval).Perm
      (p :: (inner p).filter fun s => s.strictlyContains t.toInterval) := by
    refine (List.perm_ext_iff_of_nodup (h.laminarCut.nodup.filter _) ?_).mpr fun s => ?_
    · refine List.nodup_cons.mpr ⟨fun hmem => ?_, (h.laminar p hp).nodup.filter _⟩
      exact hself p (List.mem_of_mem_filter hmem) rfl
    · rw [List.mem_filter, List.mem_cons, List.mem_filter]
      constructor
      · rintro ⟨hs, hst⟩
        exact (h.eq_or_mem_of_strictlyContains hs hp ht hst).imp_right fun hs => ⟨hs, hst⟩
      · rintro (rfl | ⟨hs, hst⟩)
        · exact ⟨List.mem_append_left _ (h.sublist.subset hp),
            (h.laminar s hp).strictlyContains_of_mem ht⟩
        · exact ⟨List.mem_append_right _ (List.mem_flatMap.mpr ⟨p, hp, hs⟩), hst⟩
  rw [Span.depthIn, Span.depthIn, List.countP_eq_length_filter, hperm.length_eq, List.length_cons,
    List.countP_eq_length_filter]

/-- The spans with none around them are those of the outermost pass. -/
lemma filter_depthIn_zero (h : Bodies depth offset count flat procedures inner) :
    (flat ++ procedures.flatMap inner).filter
        (fun t => t.depthIn (flat ++ procedures.flatMap inner) ≤ 0) = flat := by
  have hflat : flat.filter (fun t => t.depthIn (flat ++ procedures.flatMap inner) ≤ 0) = flat :=
    List.filter_eq_self.mpr fun t ht => by simp [h.depthIn_flat ht]
  have hinner : (procedures.flatMap inner).filter
      (fun t => t.depthIn (flat ++ procedures.flatMap inner) ≤ 0) = [] := by
    refine List.filter_eq_nil_iff.mpr fun t ht => ?_
    obtain ⟨p, hp, ht⟩ := List.mem_flatMap.mp ht
    simp [h.depthIn_inner hp ht]
  rw [List.filter_append, hflat, hinner, List.append_nil]

/-- The spans with few around them are those of the outermost pass, and in each body those with one
less around them there. -/
lemma filter_depthIn_succ (h : Bodies depth offset count flat procedures inner) (d : ℕ) :
    (flat ++ procedures.flatMap inner).filter
        (fun t => t.depthIn (flat ++ procedures.flatMap inner) ≤ d + 1) =
      flat ++ procedures.flatMap fun p =>
        (inner p).filter fun t => t.depthIn (inner p) ≤ d := by
  have hflat : flat.filter
      (fun t => t.depthIn (flat ++ procedures.flatMap inner) ≤ d + 1) = flat :=
    List.filter_eq_self.mpr fun t ht => by simp [h.depthIn_flat ht]
  rw [List.filter_append, hflat, List.filter_flatMap]
  refine congrArg (flat ++ ·) (List.flatMap_congr fun p hp => List.filter_congr fun t ht => ?_)
  simp [h.depthIn_inner hp ht]

end Bodies

end Depth

/-! ### The nested pass at two depths -/

section NestedSpans

variable {d d' depth offset : ℕ} {lines : List String}

/-- A nested pass succeeds if one pass does, and the nested pass in every body. -/
lemma nestedSpans_succ_eq_ok {flat : List Span} {inner : Span → List Span}
    (hflat : flatSpans (offset + 1) lines = .ok flat)
    (hinner : ∀ p ∈ flat.filter Span.hasBody,
      nestedSpans depth p.first (p.body offset lines) = .ok (inner p)) :
    nestedSpans (depth + 1) offset lines =
      .ok (flat ++ (flat.filter Span.hasBody).flatMap inner) := by
  rw [nestedSpans, hflat, List.flatMap_def]
  simp only [bind, Except.bind, mapM_eq_ok hinner]
  rfl

/-- A pass that is less deep finds the spans of a deeper one that do not lie too deep, in the order
of the deeper one. -/
theorem nestedSpans_of_le (hd : d ≤ d') {deep : List Span}
    (h : nestedSpans d' offset lines = .ok deep) :
    nestedSpans d offset lines = .ok (deep.filter fun t => t.depthIn deep ≤ d) := by
  induction d' generalizing d offset lines deep with
  | zero =>
    obtain rfl : d = 0 := Nat.le_zero.mp hd
    have hinOrder : InOrder (offset + 1) lines.length deep := flatSpans_inOrder h
    have hnone : ∀ t ∈ deep, t.depthIn deep = 0 := fun t ht =>
      List.countP_eq_zero.mpr fun s hs => LaminarCut.not_strictlyContains_of_inOrder hinOrder hs ht
    rw [h, List.filter_eq_self.mpr fun t ht => by simp [hnone t ht]]
  | succ d' ih =>
    obtain ⟨flat, inner, hflat, hinner, rfl⟩ := exists_bodies_of_nestedSpans h
    have hbodies := Bodies.of_flatSpans hflat fun p hp => nestedSpans_laminarCut (hinner p hp)
    cases d with
    | zero => rw [hbodies.filter_depthIn_zero, ← hflat, nestedSpans]
    | succ d =>
      rw [hbodies.filter_depthIn_succ]
      exact nestedSpans_succ_eq_ok hflat fun p hp => ih (Nat.le_of_succ_le_succ hd) (hinner p hp)

/-- One line has no body. -/
lemma filter_hasBody_of_length_le_one {flat : List Span}
    (hflat : flatSpans (offset + 1) lines = .ok flat) (hlength : lines.length ≤ 1) :
    flat.filter Span.hasBody = [] := by
  refine List.filter_eq_nil_iff.mpr fun s hs hbody => ?_
  have hwithin := (flatSpans_inOrder hflat).within s hs
  have hne := (Span.hasBody_iff.mp hbody).2
  omega

/-- A pass that is half as deep as there are lines finds, or fails at, what a deeper one does. -/
theorem nestedSpans_succ_of_length_le (h : lines.length ≤ 2 * d + 1) :
    nestedSpans (d + 1) offset lines = nestedSpans d offset lines := by
  induction d generalizing offset lines with
  | zero =>
    rw [nestedSpans, nestedSpans]
    cases hflat : flatSpans (offset + 1) lines with
    | error fault => rfl
    | ok flat =>
      simp only [bind, Except.bind, filter_hasBody_of_length_le_one hflat h]
      exact congrArg Except.ok (List.append_nil flat)
  | succ d ih =>
    rw [nestedSpans, nestedSpans]
    cases hflat : flatSpans (offset + 1) lines with
    | error fault => rfl
    | ok flat =>
      have hbodies : ∀ p ∈ flat.filter Span.hasBody,
          nestedSpans (d + 1) p.first (p.body offset lines) =
            nestedSpans d p.first (p.body offset lines) := by
        intro p hp
        have hwithin := (flatSpans_inOrder hflat).within p (List.mem_of_mem_filter hp)
        have hlength := p.length_body_le offset lines
        exact ih (by omega)
      simp only [bind, Except.bind, mapM_congr hbodies]

/-- **Depth of the pass is depth of the spans.**  If the pass succeeds at some depth, it does at any
smaller one, with the spans that have at most so many others around them, in the same order; without
depth it is the flat pass, and a pass that fails does so at any greater depth.  Past half the number
of lines, depth makes no difference. -/
theorem nestedSpans_restricts (hd : d ≤ d') (offset : ℕ) (lines : List String) :
    (∀ deep, nestedSpans d' offset lines = .ok deep →
      nestedSpans d offset lines = .ok (deep.filter fun t => t.depthIn deep ≤ d)) ∧
    nestedSpans 0 offset lines = flatSpans (offset + 1) lines ∧
    (∀ fault, nestedSpans d offset lines = .error fault →
      ∃ fault', nestedSpans d' offset lines = .error fault') ∧
    (lines.length / 2 ≤ d → nestedSpans d offset lines = nestedSpans (d + 1) offset lines) := by
  refine ⟨fun deep h => nestedSpans_of_le hd h, by rw [nestedSpans], fun fault h => ?_,
    fun hlength => ?_⟩
  · cases hdeep : nestedSpans d' offset lines with
    | error fault' => exact ⟨fault', rfl⟩
    | ok deep =>
      rw [nestedSpans_of_le hd hdeep] at h
      contradiction
  · exact (nestedSpans_succ_of_length_le (by omega)).symm

end NestedSpans

/-- With a procedure in a procedure, depth one leaves out what is in the inner one, and depth two is
enough for the five lines; an open comment in a body is a fault from depth one on. -/
theorem nestedSpans_restricts_of_inner_procedure :
    let lines := ["int outer(void) \x7b", "  int inner(void) \x7b", "    // deep", "  \x7d", "\x7d"]
    nestedSpans 1 10 lines = .ok [⟨⟨11, 15⟩, Kind.procedure⟩, ⟨⟨12, 14⟩, Kind.procedure⟩] ∧
      nestedSpans 3 10 lines = .ok [⟨⟨11, 15⟩, Kind.procedure⟩, ⟨⟨12, 14⟩, Kind.procedure⟩,
        ⟨⟨13, 13⟩, Kind.comment⟩] ∧
      ∃ fault, nestedSpans 2 10 ["int f() \x7b", "/* a", "\x7d"] = .error fault := by
  intro lines
  have hdeep : nestedSpans 2 10 lines = .ok [⟨⟨11, 15⟩, Kind.procedure⟩,
      ⟨⟨12, 14⟩, Kind.procedure⟩, ⟨⟨13, 13⟩, Kind.comment⟩] := by decide +kernel
  have hopen : nestedSpans 1 10 ["int f() \x7b", "/* a", "\x7d"] =
      .error (.unterminated .blockComment 12) := by decide +kernel
  refine ⟨(nestedSpans_restricts one_le_two 10 lines).1 _ hdeep, ?_,
    (nestedSpans_restricts one_le_two 10 _).2.2.1 _ hopen⟩
  rw [← (nestedSpans_restricts le_rfl 10 lines).2.2.2 (by decide), hdeep]

end SectionLedger
