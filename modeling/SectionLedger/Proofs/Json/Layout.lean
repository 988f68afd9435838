import Mathlib
import SectionLedger.Proofs.Json.Grammar

/-!
# The printed forms are texts of the value

The compact and the pretty form of a value differ in the blanks between the tokens and in nothing
else (`IsForm`).  Such a form, at any level of indentation, is one of the JSON texts of the value
(`IsForm.spells`); so both are read back as that value (`read?_compact`, `read?_pretty`).  This
takes a value that JSON can say (`Value.Plain`): foreign values have no text of their own, and a
zero below zero is not a whole number.
-/

namespace SectionLedger.Json

/-- A value that has a JSON text: nothing in it is foreign, no zero is below zero, and no name of a
member begins with a digit. -/
inductive Value.Plain : Value → Prop where
  | null : Plain .null
  | bool (b : Bool) : Plain (.bool b)
  | nat (n : ℕ) : Plain (.nat n)
  | negative {n : ℕ} (h : n ≠ 0) : Plain (.negative n)
  | text (s : String) : Plain (.text s)
  | list {items : List Value} (h : ∀ v ∈ items, Plain v) : Plain (.list items)
  | object {members : List (Key × Value)} (hk : ∀ m ∈ members, m.1.Plain)
      (h : ∀ m ∈ members, Plain m.2) : Plain (.object members)

/-! ### Blanks between the tokens -/

/-- A new line is made of blanks. -/
lemma blanks_newLine (level : ℕ) : Blanks (newLine level) := by
  intro c hc
  rcases List.mem_cons.mp hc with rfl | hc
  · exact .inr (.inl rfl)
  · exact .inl (List.eq_of_mem_replicate hc)

/-- No blanks are blanks. -/
lemma blanks_nil : Blanks [] := by
  intro c hc
  exact absurd hc List.not_mem_nil

/-- One space is made of blanks. -/
lemma blanks_space : Blanks [' '] := by
  intro c hc
  exact .inl (List.mem_singleton.mp hc)

/-- The items of a list up to the closing bracket, with one text in front of each and one behind
the last. -/
def layItems (front back : List Char) (print : Value → List Char) : List Value → List Char
  | [] => [']']
  | [v] => front ++ (print v ++ (back ++ [']']))
  | v :: vs => front ++ (print v ++ ',' :: layItems front back print vs)

/-- The members of an object up to the closing brace, with one text in front of each, one behind
each colon and one behind the last. -/
def layMembers (front gap back : List Char) (print : Value → List Char) :
    List (Key × Value) → List Char
  | [] => ['\x7d']
  | [(k, v)] => front ++ (printKey k ++ ':' :: (gap ++ (print v ++ (back ++ ['\x7d']))))
  | (k, v) :: ms =>
    front ++ (printKey k ++ ':' :: (gap ++ (print v ++ ',' :: layMembers front gap back print ms)))

/-- Items between blanks are a text of a list, if each of them is a text. -/
lemma spellsItems_layItems {front back : List Char} {print : Value → List Char}
    (hfront : Blanks front) (hback : Blanks back) {items : List Value} (hne : items ≠ [])
    (h : ∀ v ∈ items, Spells v (print v)) :
    SpellsItems items (layItems front back print items) := by
  induction items with
  | nil => exact absurd rfl hne
  | cons v vs ih =>
    obtain ⟨hv, hvs⟩ := List.forall_mem_cons.mp h
    cases vs with
    | nil => exact .last hfront hv hback
    | cons u us => exact .cons hfront hv blanks_nil (ih (List.cons_ne_nil u us) hvs)

/-- Members between blanks are a text of an object, if each of their values is a text. -/
lemma spellsMembers_layMembers {front gap back : List Char} {print : Value → List Char}
    (hfront : Blanks front) (hgap : Blanks gap) (hback : Blanks back)
    {members : List (Key × Value)} (hne : members ≠ []) (hk : ∀ m ∈ members, m.1.Plain)
    (h : ∀ m ∈ members, Spells m.2 (print m.2)) :
    SpellsMembers members (layMembers front gap back print members) := by
  induction members with
  | nil => exact absurd rfl hne
  | cons m ms ih =>
    obtain ⟨hkey, hkeys⟩ := List.forall_mem_cons.mp hk
    obtain ⟨hv, hvs⟩ := List.forall_mem_cons.mp h
    cases ms with
    | nil => exact .last hkey hfront blanks_nil hgap hv hback
    | cons u us =>
      exact .cons hkey hfront blanks_nil hgap hv blanks_nil (ih (List.cons_ne_nil u us) hkeys hvs)

/-! ### Forms of a value -/

/-- A value that has no other values in it. -/
def Value.IsToken : Value → Prop
  | .list _ => False
  | .object _ => False
  | _ => True

/-- The texts of values at levels of indentation differ from the compact ones in blanks between the
tokens only. -/
structure IsForm (print : ℕ → Value → List Char) : Prop where
  token : ∀ level v, v.IsToken → print level v = printCompact v
  list : ∀ level items, ∃ front back, Blanks front ∧ Blanks back ∧
    print level (.list items) = '[' :: layItems front back (print (level + 1)) items
  object : ∀ level members, ∃ front gap back, Blanks front ∧ Blanks gap ∧ Blanks back ∧
    print level (.object members) =
      '\x7b' :: layMembers front gap back (print (level + 1)) members

/-- A form of a value is a text of it, at every level. -/
theorem IsForm.spells {print : ℕ → Value → List Char} (hform : IsForm print) {v : Value}
    (h : v.Plain) (level : ℕ) : Spells v (print level v) := by
  induction h generalizing level with
  | null =>
    rw [hform.token level .null trivial]
    exact .null
  | bool b =>
    rw [hform.token level (.bool b) trivial]
    cases b with
    | true => exact .boolTrue
    | false => exact .boolFalse
  | nat n =>
    rw [hform.token level (.nat n) trivial]
    exact .nat n
  | negative hn =>
    rw [hform.token level (.negative _) trivial]
    exact .negative hn
  | text s =>
    rw [hform.token level (.text s) trivial]
    exact .text s
  | @list items _ ih =>
    obtain ⟨front, back, hfront, hback, htext⟩ := hform.list level items
    rw [htext]
    by_cases hne : items = []
    · subst hne
      exact .emptyList blanks_nil
    · exact .list (spellsItems_layItems hfront hback hne fun v hv => ih v hv (level + 1))
  | @object members hk _ ih =>
    obtain ⟨front, gap, back, hfront, hgap, hback, htext⟩ := hform.object level members
    rw [htext]
    by_cases hne : members = []
    · subst hne
      exact .emptyObject blanks_nil
    · exact .object
        (spellsMembers_layMembers hfront hgap hback hne hk fun m hm => ih m hm (level + 1))

/-! ### The compact and the pretty form -/

/-- The compact form has no blanks between items. -/
lemma compactItems_eq (items : List Value) :
    compactItems items = layItems [] [] printCompact items := by
  induction items with
  | nil => rfl
  | cons v vs ih => cases vs <;> simp [compactItems, layItems, ih]

/-- The compact form has no blanks between members. -/
lemma compactMembers_eq (members : List (Key × Value)) :
    compactMembers members = layMembers [] [] [] printCompact members := by
  induction members with
  | nil => rfl
  | cons m ms ih => cases ms <;> simp [compactMembers, layMembers, ih]

/-- The pretty form has every item on a line of its own. -/
lemma prettyItems_eq (level : ℕ) (items : List Value) :
    prettyItems level items =
      layItems (newLine (level + 1)) (newLine level) (printPretty (level + 1)) items := by
  induction items with
  | nil => rfl
  | cons v vs ih => cases vs <;> simp [prettyItems, layItems, ih]

/-- The pretty form has every member on a line of its own, and a space behind the colon. -/
lemma prettyMembers_eq (level : ℕ) (members : List (Key × Value)) :
    prettyMembers level members =
      layMembers (newLine (level + 1)) [' '] (newLine level) (printPretty (level + 1)) members := by
  induction members with
  | nil => rfl
  | cons m ms ih => cases ms <;> simp [prettyMembers, layMembers, ih]

/-- The compact form is a form. -/
lemma isForm_compact : IsForm fun _ => printCompact where
  token _ _ _ := rfl
  list _ items :=
    ⟨[], [], blanks_nil, blanks_nil, by rw [printCompact, compactItems_eq]⟩
  object _ members :=
    ⟨[], [], [], blanks_nil, blanks_nil, blanks_nil, by rw [printCompact, compactMembers_eq]⟩

/-- The pretty form is a form. -/
lemma isForm_pretty : IsForm printPretty where
  token level v h := by
    cases v with
    | list items => exact h.elim
    | object members => exact h.elim
    | bool b => cases b <;> rw [printPretty, printCompact]
    | _ => rw [printPretty, printCompact]
  list level items :=
    ⟨_, _, blanks_newLine _, blanks_newLine _, by rw [printPretty, prettyItems_eq]⟩
  object level members :=
    ⟨_, _, _, blanks_newLine _, blanks_space, blanks_newLine _,
      by rw [printPretty, prettyMembers_eq]⟩

/-- **Reading takes back printing.**  A value that has a JSON text is read back from any form of
it. -/
theorem IsForm.read?_eq {print : ℕ → Value → List Char} (hform : IsForm print) {v : Value}
    (h : v.Plain) (level : ℕ) : read? (String.ofList (print level v)) = some v := by
  simpa using read?_of_spells blanks_nil (hform.spells h level) blanks_nil

/-- A value that has a JSON text is read back from its compact form. -/
theorem read?_compact {v : Value} (h : v.Plain) : read? v.compact = some v :=
  isForm_compact.read?_eq h 0

/-- A value that has a JSON text is read back from its pretty form. -/
theorem read?_pretty {v : Value} (h : v.Plain) : read? v.pretty = some v :=
  isForm_pretty.read?_eq h 0

end SectionLedger.Json
