import Mathlib
import SectionLedger.Proofs.Json.Layout
import SectionLedger.Json.Section

/-!
# Records read back

A record that was written as an object gives back the value of each of its fields, as long as no
name is used twice (`slots?_record`); what is not written is missing there, and nothing else
(`slots?_eq_map_slotOf`).  A value *reads back* if its JSON form has a JSON text and the value is
read from it (`ReadsBack`); a record does if it is read from the values of its fields.  A section
reads back if its numbers fit a machine word (`Section.FitsWords`).
-/

namespace SectionLedger

namespace Json

/-! ### Fields -/

/-- A field is found by its name, if no other field has that name. -/
lemma lookup_of_mem {fields : List (String × Value)} (hnodup : (fields.map (·.1)).Nodup)
    {field : String × Value} (hmem : field ∈ fields) :
    fields.lookup field.1 = some field.2 := by
  induction fields with
  | nil => exact absurd hmem List.not_mem_nil
  | cons f fields ih =>
    obtain ⟨hf, hfields⟩ := List.nodup_cons.mp hnodup
    rcases List.mem_cons.mp hmem with rfl | hmem
    · exact List.lookup_cons_self
    · have hne : field.1 ≠ f.1 := by
        intro heq
        exact hf (List.mem_map.mpr ⟨field, hmem, heq⟩)
      rw [List.lookup_cons, beq_false_of_ne hne]
      exact ih hfields hmem

/-- The key of a field is its name. -/
lemma lookup_map_name (fields : List (String × Value)) (name : String) :
    (fields.map fun f => (Key.name f.1, f.2)).lookup (.name name) = fields.lookup name := by
  induction fields with
  | nil => rfl
  | cons f fields ih =>
    have hkey : (Key.name name == Key.name f.1) = (name == f.1) := by
      rw [Bool.eq_iff_iff, beq_iff_eq, beq_iff_eq, Key.name.injEq]
    rw [List.map_cons, List.lookup_cons, List.lookup_cons, ih, hkey]

/-- No field of a record is written twice, if no name is. -/
lemma countP_record_le_one {fields : List (String × Value)}
    (hnodup : (fields.map (·.1)).Nodup) (name : String) :
    (fields.map fun f => (Key.name f.1, f.2)).countP (fun m => m.1 == .name name) ≤ 1 := by
  have hcount : (fields.map fun f => (Key.name f.1, f.2)).countP (fun m => m.1 == .name name) =
      (fields.map (·.1)).count name := by
    rw [List.count, List.countP_map, List.countP_map]
    refine List.countP_congr ?_
    intro f _
    simp
  rw [hcount]
  exact List.nodup_iff_count_le_one.mp hnodup name

/-- What is written for a name among the fields of a record. -/
def slotOf (fields : List (String × Value)) (name : String) : Slot :=
  (fields.lookup name).elim .absent .given

/-- What is written for a field is found by its name. -/
lemma slots?_eq_map_slotOf {fields : List (String × Value)} (hnodup : (fields.map (·.1)).Nodup)
    (names : List String) :
    (Value.record fields).slots? names = some (names.map (slotOf fields)) := by
  have honce : ¬ names.any fun name => decide
      (1 < (fields.map fun f => (Key.name f.1, f.2)).countP fun m => m.1 == .name name) := by
    simp only [List.any_eq_true, decide_eq_true_eq, not_exists, not_and, not_lt]
    intro name _
    exact countP_record_le_one hnodup name
  rw [Value.record, Value.slots?, if_neg honce]
  simp only [lookup_map_name]
  rfl

/-- The fields of a record are given back in order. -/
lemma slots?_record (names : List String) (values : List Value)
    (hlength : names.length = values.length) (hnodup : names.Nodup) :
    (Value.record (names.zip values)).slots? names = some (values.map .given) := by
  have hfst : (names.zip values).map (·.1) = names := List.map_fst_zip hlength.le
  have hsnd : (names.zip values).map (·.2) = values := List.map_snd_zip hlength.ge
  generalize names.zip values = fields at hfst hsnd ⊢
  subst hfst hsnd
  rw [slots?_eq_map_slotOf hnodup, List.map_map, List.map_map]
  refine congrArg some (List.map_congr_left ?_)
  intro field hfield
  simp [slotOf, lookup_of_mem hnodup hfield]

/-- A list is read back item by item. -/
lemma asList?_ofList {α : Type} {encode : α → Value} {decode : Value → Option α} {as : List α}
    (h : ∀ a ∈ as, decode (encode a) = some a) :
    Value.asList? decode (.ofList encode as) = some as := by
  rw [Value.ofList, Value.asList?]
  induction as with
  | nil => rfl
  | cons a as ih =>
    obtain ⟨ha, has⟩ := List.forall_mem_cons.mp h
    simp [ha, ih has]

/-- An optional field is read back, if no value of it is written as null. -/
lemma nullable_ofOption {α : Type} {encode : α → Value} {decode : Value → Option α} {o : Option α}
    (hnull : ∀ a, encode a ≠ .null) (h : ∀ a, decode (encode a) = some a) :
    Slot.nullable decode (.given (.ofOption encode o)) = some o := by
  cases o with
  | none => rfl
  | some a =>
    rw [Value.ofOption, Slot.nullable, h a]
    · rfl
    · exact hnull a

/-! ### Plain records -/

/-- A name is plain if its first character is no digit. -/
lemma Key.plain_name_iff {s : String} :
    (Key.name s).Plain ↔ ∀ c ∈ s.toList.head?, c.isDigit = false := by
  cases h : s.toList with
  | nil => simp [Key.Plain, h]
  | cons c t => simp [Key.Plain, h]

/-- A record is plain if its names and the values of its fields are. -/
lemma Value.Plain.record (names : List String) (values : List Value)
    (hnames : ∀ name ∈ names, (Key.name name).Plain) (hvalues : ∀ v ∈ values, v.Plain) :
    (Value.record (names.zip values)).Plain := by
  refine .object ?_ ?_
  · intro m hm
    obtain ⟨f, hf, rfl⟩ := List.mem_map.mp hm
    exact hnames f.1 (List.of_mem_zip hf).1
  · intro m hm
    obtain ⟨f, hf, rfl⟩ := List.mem_map.mp hm
    exact hvalues f.2 (List.of_mem_zip hf).2

/-- A list is plain if its items are. -/
lemma Value.Plain.ofList {α : Type} {encode : α → Value} {as : List α}
    (h : ∀ a ∈ as, (encode a).Plain) : (Value.ofList encode as).Plain := by
  refine .list ?_
  simpa using h

/-- An optional value is plain if its values are. -/
lemma Value.Plain.ofOption {α : Type} {encode : α → Value} (h : ∀ a, (encode a).Plain)
    (o : Option α) : (Value.ofOption encode o).Plain := by
  cases o with
  | none => exact .null
  | some a => exact h a

/-! ### What reads back -/

/-- The JSON form of a value of a type has a JSON text, and the value is read from it. -/
structure ReadsBack {α : Type} (encode : α → Value) (decode : Value → Option α) (a : α) : Prop where
  plain : (encode a).Plain
  decode_encode : decode (encode a) = some a

namespace ReadsBack

variable {α : Type} {encode : α → Value} {decode : Value → Option α} {a : α}

/-- A list reads back if its items do. -/
lemma ofList {as : List α} (h : ∀ a ∈ as, ReadsBack encode decode a) :
    ReadsBack (Value.ofList encode) (Value.asList? decode) as where
  plain := .ofList fun a ha => (h a ha).plain
  decode_encode := asList?_ofList fun a ha => (h a ha).decode_encode

/-- A field that may be null reads back if the values do, and none of them is written as null. -/
lemma ofOption {o : Option α} (hnull : ∀ a, encode a ≠ .null)
    (h : ∀ a, ReadsBack encode decode a) :
    ReadsBack (Value.ofOption encode) (fun v => Slot.nullable decode (.given v)) o where
  plain := .ofOption (fun a => (h a).plain) o
  decode_encode := nullable_ofOption hnull fun a => (h a).decode_encode

/-- A record reads back if the values of its fields have JSON texts, and it is read from them. -/
lemma of_record (names : List String) (values : List Value)
    (hencode : encode a = .record (names.zip values)) (hlength : names.length = values.length)
    (hnodup : names.Nodup) (hnames : ∀ name ∈ names, (Key.name name).Plain)
    (hvalues : ∀ v ∈ values, v.Plain)
    (hdecode : (encode a).slots? names = some (values.map .given) → decode (encode a) = some a) :
    ReadsBack encode decode a where
  plain := hencode ▸ .record names values hnames hvalues
  decode_encode := hdecode (hencode ▸ slots?_record names values hlength hnodup)

end ReadsBack

/-- A text reads back. -/
lemma readsBack_text (s : String) : ReadsBack .text Value.asText? s := ⟨.text s, rfl⟩

/-- An optional text reads back. -/
lemma readsBack_optionalText (o : Option String) :
    ReadsBack (Value.ofOption .text) (fun v => Slot.nullable Value.asText? (.given v)) o :=
  .ofOption (fun _ => nofun) readsBack_text

end Json

open Json

/-! ### Statuses and sections -/

/-- A status reads back. -/
lemma Status.readsBack (s : Status) : ReadsBack toJson ofJson? s :=
  ⟨.text s.label, Status.ofLabel?_label s⟩

/-- An optional status reads back. -/
lemma Status.readsBack_optional (o : Option Status) :
    ReadsBack (Value.ofOption toJson) (fun v => Slot.nullable ofJson? (.given v)) o :=
  .ofOption (fun _ => nofun) Status.readsBack

namespace Section

/-- A section whose file number and line numbers fit a machine word. -/
structure FitsWords (s : Section) : Prop where
  file : s.file < Text.wordLimit
  first : s.first < Text.wordLimit
  last : s.last < Text.wordLimit

/-- A section reads back if its numbers fit. -/
lemma readsBack {s : Section} (h : s.FitsWords) : ReadsBack toJson ofJson? s := by
  have hstatus := Status.readsBack_optional s.status
  refine .of_record fieldNames _ rfl rfl (by decide) (by simp [fieldNames, Key.plain_name_iff]) ?_
    fun hslots => ?_
  · simp only [List.forall_mem_cons]
    exact ⟨.nat _, .nat _, .nat _, .text _, hstatus.plain, .text _, .text _, .text _, .text _,
      by simp⟩
  · rw [ofJson?, hslots]
    simp [Slot.required, Slot.withDefault, Value.asWord?, Value.asText?, h.file, h.first, h.last,
      hstatus.decode_encode]

end Section

end SectionLedger
