/-!
# Patterns

A small language of text patterns.  `Pattern.rests` lists every way to match a pattern at the front
of a text by what is left after it, longest runs first, so that matching needs no search state: a
pattern matches if some rest exists, and it matches a whole text if the empty rest is among them.
-/

namespace SectionLedger.Text

/-- A description of the texts that may stand at the front of a line. -/
inductive Pattern where
  /-- One character of a class. -/
  | one (isMember : Char → Bool)
  /-- Any number of characters of a class. -/
  | many (isMember : Char → Bool)
  /-- Exactly these characters. -/
  | literal (text : List Char)
  /-- One pattern and then another. -/
  | seq (first second : Pattern)
  /-- One pattern or another. -/
  | either (first second : Pattern)
  /-- The end of the text. -/
  | finish

namespace Pattern

/-- The suffixes left after dropping no, one, two, … characters of a class. -/
def afterRuns (isMember : Char → Bool) : List Char → List (List Char)
  | [] => [[]]
  | c :: s => (c :: s) :: if isMember c then afterRuns isMember s else []

/-- Every rest that a match of the pattern at the front of the text can leave. -/
def rests : Pattern → List Char → List (List Char)
  | .one isMember, s => match s with
    | [] => []
    | c :: s => if isMember c then [s] else []
  | .many isMember, s => (afterRuns isMember s).reverse
  | .literal text, s => if text.isPrefixOf s then [s.drop text.length] else []
  | .seq first second, s => (first.rests s).flatMap second.rests
  | .either first second, s => first.rests s ++ second.rests s
  | .finish, s => if s.isEmpty then [[]] else []

/-- Whether the pattern matches at the front of the text. -/
def matchesFront (p : Pattern) (s : List Char) : Bool := !(p.rests s).isEmpty

/-- The literal pattern of a string. -/
def word (text : String) : Pattern := .literal text.toList

/-- One of several patterns, tried in order. -/
def oneOf : List Pattern → Pattern
  | [] => .one fun _ => false
  | [p] => p
  | p :: ps => .either p (oneOf ps)

/-- Several patterns, one after another. -/
def inOrder : List Pattern → Pattern
  | [] => .literal []
  | [p] => p
  | p :: ps => .seq p (inOrder ps)

/-- One or more characters of a class. -/
def oneOrMore (isMember : Char → Bool) : Pattern := .seq (.one isMember) (.many isMember)

/-- A pattern or nothing. -/
def optional (p : Pattern) : Pattern := .either p (.literal [])

theorem mem_afterRuns_iff {isMember : Char → Bool} {s r : List Char} :
    r ∈ afterRuns isMember s ↔ ∃ run, run ++ r = s ∧ ∀ c ∈ run, isMember c = true := by
  induction s with
  | nil =>
    simp only [afterRuns, List.mem_singleton, List.append_eq_nil_iff]
    exact ⟨fun h => ⟨[], ⟨rfl, h⟩, by simp⟩, fun ⟨_, h, _⟩ => h.2⟩
  | cons c s ih =>
    by_cases hc : isMember c = true
    · simp only [afterRuns, hc, if_true, List.mem_cons, ih]
      constructor
      · rintro (rfl | ⟨run, rfl, hrun⟩)
        · exact ⟨[], rfl, by simp⟩
        · exact ⟨c :: run, rfl, by simpa [hc] using hrun⟩
      · rintro ⟨_ | ⟨d, run⟩, hr, hrun⟩
        · exact .inl (by simpa using hr)
        · obtain ⟨rfl, rfl⟩ : d = c ∧ run ++ r = s := by simpa using hr
          exact .inr ⟨run, rfl, fun x hx => hrun x (List.mem_cons_of_mem _ hx)⟩
    · simp only [afterRuns, hc, List.mem_cons]
      constructor
      · rintro (rfl | h)
        · exact ⟨[], rfl, by simp⟩
        · simp at h
      · rintro ⟨_ | ⟨d, run⟩, hr, hrun⟩
        · exact .inl (by simpa using hr)
        · obtain ⟨rfl, rfl⟩ : d = c ∧ run ++ r = s := by simpa using hr
          exact absurd (hrun d (by simp)) hc

end Pattern

end SectionLedger.Text
