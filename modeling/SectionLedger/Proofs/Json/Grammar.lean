import Mathlib
import SectionLedger.Proofs.Json.Token

/-!
# JSON texts of a value

`Spells v s` says that the characters `s` are a JSON text of the value `v`: its strings, numbers and
keys are written as the printer writes them, and blanks stand between the tokens wherever the
grammar allows some.  The reader reads every such text, whatever its layout (`read?_of_spells`).  It
needs a budget of twice the length of the text, since each item of a list costs one step for the
list and one for the item (`readValue_of_spells`).
-/

namespace SectionLedger.Json

/-! ### Blanks -/

/-- A text of spaces, tabs, line feeds and carriage returns. -/
def Blanks (w : List Char) : Prop := ∀ c ∈ w, c = ' ' ∨ c = '\n' ∨ c = '\t' ∨ c = '\r'

/-- Blanks in front are skipped. -/
lemma skipBlanks_append {w : List Char} (hw : Blanks w) (s : List Char) :
    skipBlanks (w ++ s) = skipBlanks s := by
  induction w with
  | nil => rfl
  | cons c w ih =>
    obtain ⟨hc, hw⟩ := List.forall_mem_cons.mp hw
    rw [List.cons_append, skipBlanks, if_pos hc]
    exact ih hw

/-- A digit is no blank. -/
lemma skipBlanks_of_isDigit {c : Char} (hc : c.isDigit = true) (s : List Char) :
    skipBlanks (c :: s) = c :: s := by
  have hne : ∀ d : Char, d.isDigit = false → c ≠ d := fun d hd => ne_of_isDigit hc hd
  rw [skipBlanks, if_neg]
  simp [hne ' ' rfl, hne '\n' rfl, hne '\t' rfl, hne '\r' rfl]

/-- Blanks end a number, as far as what follows them does. -/
lemma EndsNumber.blanks_append {w s : List Char} (hw : Blanks w) (h : EndsNumber s) :
    EndsNumber (w ++ s) := by
  cases w with
  | nil => exact h
  | cons d w =>
    rintro c t heq
    obtain rfl : d = c := (List.cons.inj heq).1
    rcases hw d List.mem_cons_self with rfl | rfl | rfl | rfl <;> decide

/-- A comma or a closing bracket ends a number. -/
lemma endsNumber_cons {d : Char} (hd : d = ',' ∨ d = ']' ∨ d = '\x7d') (s : List Char) :
    EndsNumber (d :: s) := by
  rintro c t heq
  obtain rfl : d = c := (List.cons.inj heq).1
  rcases hd with rfl | rfl | rfl <;> decide

/-- Blanks in front of a value are skipped. -/
lemma readValue_blanks_append {w : List Char} (hw : Blanks w) (budget : ℕ) (s : List Char) :
    readValue budget (w ++ s) = readValue budget s := by
  cases budget with
  | zero => rfl
  | succ budget => rw [readValue, readValue, skipBlanks_append hw]

/-! ### Texts of values -/

mutual

/-- The characters are a JSON text of the value, with printed tokens and any layout. -/
inductive Spells : Value → List Char → Prop where
  | null : Spells .null ['n', 'u', 'l', 'l']
  | boolTrue : Spells (.bool true) ['t', 'r', 'u', 'e']
  | boolFalse : Spells (.bool false) ['f', 'a', 'l', 's', 'e']
  | nat (n : ℕ) : Spells (.nat n) (printNat n)
  | negative {n : ℕ} (h : n ≠ 0) : Spells (.negative n) ('-' :: printNat n)
  | text (s : String) : Spells (.text s) (printText s)
  | emptyList {w : List Char} (hw : Blanks w) : Spells (.list []) ('[' :: (w ++ [']']))
  | list {vs : List Value} {s : List Char} (h : SpellsItems vs s) : Spells (.list vs) ('[' :: s)
  | emptyObject {w : List Char} (hw : Blanks w) : Spells (.object []) ('\x7b' :: (w ++ ['\x7d']))
  | object {ms : List (Key × Value)} {s : List Char} (h : SpellsMembers ms s) :
      Spells (.object ms) ('\x7b' :: s)

/-- The characters are the items of a list, of which there is at least one, up to the closing
bracket. -/
inductive SpellsItems : List Value → List Char → Prop where
  | last {v : Value} {w s w' : List Char} (hw : Blanks w) (h : Spells v s) (hw' : Blanks w') :
      SpellsItems [v] (w ++ (s ++ (w' ++ [']'])))
  | cons {v : Value} {vs : List Value} {w s w' t : List Char} (hw : Blanks w) (h : Spells v s)
      (hw' : Blanks w') (ht : SpellsItems vs t) :
      SpellsItems (v :: vs) (w ++ (s ++ (w' ++ ',' :: t)))

/-- The characters are the members of an object, of which there is at least one, up to the closing
bracket. -/
inductive SpellsMembers : List (Key × Value) → List Char → Prop where
  | last {k : Key} {v : Value} {w w₁ w₂ s w' : List Char} (hk : k.Plain) (hw : Blanks w)
      (hw₁ : Blanks w₁) (hw₂ : Blanks w₂) (h : Spells v s) (hw' : Blanks w') :
      SpellsMembers [(k, v)] (w ++ (printKey k ++ (w₁ ++ ':' :: (w₂ ++ (s ++ (w' ++ ['\x7d']))))))
  | cons {k : Key} {v : Value} {ms : List (Key × Value)} {w w₁ w₂ s w' t : List Char}
      (hk : k.Plain) (hw : Blanks w) (hw₁ : Blanks w₁) (hw₂ : Blanks w₂) (h : Spells v s)
      (hw' : Blanks w') (ht : SpellsMembers ms t) :
      SpellsMembers ((k, v) :: ms)
        (w ++ (printKey k ++ (w₁ ++ ':' :: (w₂ ++ (s ++ (w' ++ ',' :: t))))))

end

/-- The first character of a value is neither a blank nor a closing bracket. -/
lemma Spells.exists_cons {v : Value} {s : List Char} (h : Spells v s) :
    ∃ c t, s = c :: t ∧ c ≠ ']' ∧ ∀ r, skipBlanks (c :: r) = c :: r := by
  cases h with
  | nat n =>
    obtain ⟨c, cs, hdigits⟩ := List.exists_cons_of_ne_nil (printNat_ne_nil n)
    have hc : c.isDigit = true := isDigit_of_mem_printNat (n := n) (hdigits ▸ List.mem_cons_self)
    exact ⟨c, cs, hdigits, ne_of_isDigit hc rfl, skipBlanks_of_isDigit hc⟩
  | _ => exact ⟨_, _, rfl, by decide, fun r => by simp [skipBlanks]⟩

/-- The text of a value is not empty. -/
lemma Spells.length_pos {v : Value} {s : List Char} (h : Spells v s) : 0 < s.length := by
  obtain ⟨c, t, rfl, -⟩ := h.exists_cons
  exact Nat.succ_pos _

/-- The items of a list do not begin with a closing bracket. -/
lemma SpellsItems.skipBlanks_ne {vs : List Value} {s : List Char} (h : SpellsItems vs s)
    (rest t : List Char) : skipBlanks (s ++ rest) ≠ ']' :: t := by
  have hne {v : Value} {w s' r : List Char} (hw : Blanks w) (hv : Spells v s') :
      skipBlanks (w ++ (s' ++ r)) ≠ ']' :: t := by
    obtain ⟨c, cs, rfl, hc, hskip⟩ := hv.exists_cons
    rw [skipBlanks_append hw, List.cons_append, hskip]
    intro heq
    exact hc (List.cons.inj heq).1
  cases h with
  | last hw hv _ => simpa using hne hw hv
  | cons hw hv _ _ => simpa using hne hw hv

/-- The members of an object do not begin with a closing brace. -/
lemma SpellsMembers.skipBlanks_ne {ms : List (Key × Value)} {s : List Char}
    (h : SpellsMembers ms s) (rest t : List Char) : skipBlanks (s ++ rest) ≠ '\x7d' :: t := by
  have hne {k : Key} {w r : List Char} (hk : k.Plain) (hw : Blanks w) :
      skipBlanks (w ++ (printKey k ++ r)) ≠ '\x7d' :: t := by
    obtain ⟨cs, htext, -⟩ := readKey_printKey hk r
    rw [skipBlanks_append hw, htext]
    simp [skipBlanks]
  cases h with
  | last hk hw => simpa using hne hk hw
  | cons hk hw => simpa using hne hk hw

/-- The items of a list take up a value and a bracket at least. -/
lemma SpellsItems.two_le_length {vs : List Value} {s : List Char} (h : SpellsItems vs s) :
    2 ≤ s.length := by
  cases h with
  | last _ hv _ =>
    have hpos := hv.length_pos
    simp
    omega
  | cons _ hv _ _ =>
    have hpos := hv.length_pos
    simp
    omega

/-- The members of an object take up a key and a brace at least. -/
lemma SpellsMembers.two_le_length {ms : List (Key × Value)} {s : List Char}
    (h : SpellsMembers ms s) : 2 ≤ s.length := by
  cases h with
  | last _ _ _ _ hv _ =>
    have hpos := hv.length_pos
    simp
    omega
  | cons _ _ _ _ hv _ _ =>
    have hpos := hv.length_pos
    simp
    omega

/-! ### The first token decides -/

section Steps

variable (budget : ℕ) (r : List Char)

/-- What begins with a digit is a number. -/
lemma readValue_of_isDigit {c : Char} (hc : c.isDigit = true) :
    readValue (budget + 1) (c :: r) = readNumber (c :: r) := by
  have hne : ∀ d : Char, d.isDigit = false → c ≠ d := fun d hd => ne_of_isDigit hc hd
  rw [readValue, skipBlanks_of_isDigit hc]
  simp [hne '"' rfl, hne '[' rfl, hne '\x7b' rfl, hne 'n' rfl, hne 't' rfl, hne 'f' rfl]

/-- What begins with an opening bracket and has no closing one next is a list of some items. -/
lemma readValue_list (h : ∀ t, skipBlanks r ≠ ']' :: t) :
    readValue (budget + 1) ('[' :: r) =
      (readItems budget r).map fun parts => (.list parts.1, parts.2) := by
  have hskip : skipBlanks ('[' :: r) = '[' :: r := by simp [skipBlanks]
  rw [readValue, hskip]
  cases hr : skipBlanks r with
  | nil => simp [hr]
  | cons c t =>
    have hc : c ≠ ']' := by
      rintro rfl
      exact h t hr
    simp [hc, hr]

/-- What begins with an opening brace and has no closing one next is an object with members. -/
lemma readValue_object (h : ∀ t, skipBlanks r ≠ '\x7d' :: t) :
    readValue (budget + 1) ('\x7b' :: r) =
      (readMembers budget r).map fun parts =>
        ((namedMembers? parts.1).elim .foreign .object, parts.2) := by
  have hskip : skipBlanks ('\x7b' :: r) = '\x7b' :: r := by simp [skipBlanks]
  rw [readValue, hskip]
  cases hr : skipBlanks r with
  | nil => simp [hr]
  | cons c t =>
    have hc : c ≠ '\x7d' := by
      rintro rfl
      exact h t hr
    simp [hc, hr]

/-- The last item of a list is followed by the closing bracket. -/
lemma readItems_last {s w' rest : List Char} {v : Value} (hw' : Blanks w')
    (h : readValue budget s = some (v, w' ++ ']' :: rest)) :
    readItems (budget + 1) s = some ([v], rest) := by
  rw [readItems, h]
  simp [skipBlanks_append hw', skipBlanks]

/-- An item that is not the last one is followed by a comma. -/
lemma readItems_cons {s w' t : List Char} {v : Value} (hw' : Blanks w')
    (h : readValue budget s = some (v, w' ++ ',' :: t)) :
    readItems (budget + 1) s = (readItems budget t).map fun parts => (v :: parts.1, parts.2) := by
  rw [readItems, h]
  simp [skipBlanks_append hw', skipBlanks]

/-- The last member of an object is followed by the closing brace. -/
lemma readMembers_last {k : Key} {w w₁ s w' rest : List Char} {v : Value} (hk : k.Plain)
    (hw : Blanks w) (hw₁ : Blanks w₁) (hw' : Blanks w')
    (h : readValue budget s = some (v, w' ++ '\x7d' :: rest)) :
    readMembers (budget + 1) (w ++ (printKey k ++ (w₁ ++ ':' :: s))) =
      some ([(some k, v)], rest) := by
  obtain ⟨t, htext, hkey⟩ := readKey_printKey hk (w₁ ++ ':' :: s)
  rw [readMembers, skipBlanks_append hw, htext]
  simp [skipBlanks, hkey, skipBlanks_append hw₁, h, skipBlanks_append hw']

/-- A member that is not the last one is followed by a comma. -/
lemma readMembers_cons {k : Key} {w w₁ s w' t : List Char} {v : Value} (hk : k.Plain)
    (hw : Blanks w) (hw₁ : Blanks w₁) (hw' : Blanks w')
    (h : readValue budget s = some (v, w' ++ ',' :: t)) :
    readMembers (budget + 1) (w ++ (printKey k ++ (w₁ ++ ':' :: s))) =
      (readMembers budget t).map fun parts => ((some k, v) :: parts.1, parts.2) := by
  obtain ⟨r, htext, hkey⟩ := readKey_printKey hk (w₁ ++ ':' :: s)
  rw [readMembers, skipBlanks_append hw, htext]
  simp [skipBlanks, hkey, skipBlanks_append hw₁, h, skipBlanks_append hw']

end Steps

/-- Members whose keys all have a text are kept. -/
lemma namedMembers?_map_some (ms : List (Key × Value)) :
    namedMembers? (ms.map fun m => (some m.1, m.2)) = some ms := by
  induction ms with
  | nil => rfl
  | cons m ms ih =>
    rw [namedMembers?] at ih ⊢
    simp [ih]

/-! ### Reading a text of a value -/

mutual

/-- A text of a value is read back as that value, if what follows it does not go on with a
number. -/
theorem readValue_of_spells {v : Value} {s : List Char} (h : Spells v s) {budget : ℕ}
    (hbudget : 2 * s.length ≤ budget + 1) {rest : List Char} (hrest : EndsNumber rest) :
    readValue budget (s ++ rest) = some (v, rest) := by
  obtain ⟨b, rfl⟩ : ∃ b, budget = b + 1 := by
    have hpos := h.length_pos
    exact ⟨budget - 1, by omega⟩
  match h with
  | .null => simp [readValue, skipBlanks, afterWord?]
  | .boolTrue => simp [readValue, skipBlanks, afterWord?]
  | .boolFalse => simp [readValue, skipBlanks, afterWord?]
  | .nat n =>
    have hread := readNumber_natural n hrest
    obtain ⟨c, cs, hdigits⟩ := List.exists_cons_of_ne_nil (printNat_ne_nil n)
    have hc : c.isDigit = true := isDigit_of_mem_printNat (n := n) (hdigits ▸ List.mem_cons_self)
    rw [hdigits, List.cons_append] at hread ⊢
    rw [readValue_of_isDigit b _ hc, hread]
  | .negative hn =>
    have hread := readNumber_negative hn hrest
    rw [← hread]
    simp [readValue, skipBlanks]
  | .text t =>
    have hread := readUnits_flatMap t.toList rest
    simp [readValue, skipBlanks, printText, hread, textOf?_map_char]
  | .emptyList hw => simp [readValue, skipBlanks, skipBlanks_append hw]
  | .emptyObject hw => simp [readValue, skipBlanks, skipBlanks_append hw]
  | .list (s := s) hs =>
    have hread : readItems b (s ++ rest) = some (_, rest) :=
      readItems_of_spells hs (by simp at hbudget; omega) rest
    have hopen : ∀ t, skipBlanks (s ++ rest) ≠ ']' :: t := hs.skipBlanks_ne rest
    rw [List.cons_append, readValue_list b _ hopen, hread, Option.map_some]
  | .object (s := s) hs =>
    have hread : readMembers b (s ++ rest) = some (_, rest) :=
      readMembers_of_spells hs (by simp at hbudget; omega) rest
    have hopen : ∀ t, skipBlanks (s ++ rest) ≠ '\x7d' :: t := hs.skipBlanks_ne rest
    rw [List.cons_append, readValue_object b _ hopen, hread, Option.map_some,
      namedMembers?_map_some]
    rfl

/-- A text of the items of a list is read back as those items. -/
theorem readItems_of_spells {vs : List Value} {s : List Char} (h : SpellsItems vs s) {budget : ℕ}
    (hbudget : 2 * s.length ≤ budget + 2) (rest : List Char) :
    readItems budget (s ++ rest) = some (vs, rest) := by
  obtain ⟨b, rfl⟩ : ∃ b, budget = b + 1 := by
    have hpos := h.two_le_length
    exact ⟨budget - 1, by omega⟩
  match h with
  | @SpellsItems.last v w s w' hw hv hw' =>
    have hend : EndsNumber (w' ++ ']' :: rest) :=
      (endsNumber_cons (by simp) rest).blanks_append hw'
    have hread : readValue b (s ++ (w' ++ ']' :: rest)) = some (v, w' ++ ']' :: rest) :=
      readValue_of_spells hv (by simp at hbudget; omega) hend
    rw [← readValue_blanks_append hw] at hread
    simpa using readItems_last b hw' hread
  | @SpellsItems.cons v vs w s w' t hw hv hw' ht =>
    have hend : EndsNumber (w' ++ ',' :: (t ++ rest)) :=
      (endsNumber_cons (by simp) _).blanks_append hw'
    have hread : readValue b (s ++ (w' ++ ',' :: (t ++ rest))) =
        some (v, w' ++ ',' :: (t ++ rest)) :=
      readValue_of_spells hv (by simp at hbudget; omega) hend
    have hitems : readItems b (t ++ rest) = some (vs, rest) :=
      readItems_of_spells ht (by simp at hbudget; omega) rest
    rw [← readValue_blanks_append hw] at hread
    simpa [hitems] using readItems_cons b hw' hread

/-- A text of the members of an object is read back as those members. -/
theorem readMembers_of_spells {ms : List (Key × Value)} {s : List Char} (h : SpellsMembers ms s)
    {budget : ℕ} (hbudget : 2 * s.length ≤ budget + 2) (rest : List Char) :
    readMembers budget (s ++ rest) = some (ms.map fun m => (some m.1, m.2), rest) := by
  obtain ⟨b, rfl⟩ : ∃ b, budget = b + 1 := by
    have hpos := h.two_le_length
    exact ⟨budget - 1, by omega⟩
  match h with
  | @SpellsMembers.last k v w w₁ w₂ s w' hk hw hw₁ hw₂ hv hw' =>
    have hend : EndsNumber (w' ++ '\x7d' :: rest) :=
      (endsNumber_cons (by simp) rest).blanks_append hw'
    have hread : readValue b (s ++ (w' ++ '\x7d' :: rest)) = some (v, w' ++ '\x7d' :: rest) :=
      readValue_of_spells hv (by simp at hbudget; omega) hend
    rw [← readValue_blanks_append hw₂] at hread
    simpa using readMembers_last b hk hw hw₁ hw' hread
  | @SpellsMembers.cons k v ms w w₁ w₂ s w' t hk hw hw₁ hw₂ hv hw' ht =>
    have hend : EndsNumber (w' ++ ',' :: (t ++ rest)) :=
      (endsNumber_cons (by simp) _).blanks_append hw'
    have hread : readValue b (s ++ (w' ++ ',' :: (t ++ rest))) =
        some (v, w' ++ ',' :: (t ++ rest)) :=
      readValue_of_spells hv (by simp at hbudget; omega) hend
    have hmembers : readMembers b (t ++ rest) = some (ms.map fun m => (some m.1, m.2), rest) :=
      readMembers_of_spells ht (by simp at hbudget; omega) rest
    rw [← readValue_blanks_append hw₂] at hread
    simpa [hmembers] using readMembers_cons b hk hw hw₁ hw' hread

end

/-- **Every layout of a value is read.**  A JSON text of a value is read as that value, whatever
blanks stand between its tokens and around it. -/
theorem read?_of_spells {v : Value} {w s w' : List Char} (hw : Blanks w) (h : Spells v s)
    (hw' : Blanks w') : read? (String.ofList (w ++ (s ++ w'))) = some v := by
  have hend : EndsNumber w' := by
    have hnil : EndsNumber [] := by
      intro c t hs
      exact absurd hs (List.cons_ne_nil c t).symm
    simpa using hnil.blanks_append hw'
  have hread : readValue (2 * (w ++ (s ++ w')).length + 2) (s ++ w') = some (v, w') :=
    readValue_of_spells h (by simp; omega) hend
  have hskip : skipBlanks w' = [] := by
    simpa [skipBlanks] using skipBlanks_append hw' []
  rw [← readValue_blanks_append hw] at hread
  rw [read?, String.toList_ofList, hread]
  simp [hskip]

end SectionLedger.Json
