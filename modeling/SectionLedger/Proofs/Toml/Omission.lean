import Mathlib
import SectionLedger.Proofs.Json.Record
import SectionLedger.Proofs.Toml.Document

/-!
# What documents leave out

The tables of a document are read as records (`toJson_tableMembers`).  A document may leave out
fields of its tables, and tables with all their fields (`Omission`); then just these are missing in
the records (`Omission.toJson_rest`).  Fields with defaults are read even so, if the defaults are
what they hold (`forall₂_orDefault`).
-/

namespace SectionLedger

namespace Json

/-! ### Fields that are left out -/

section Leaving

variable {leaves : String → Bool} {fields : List (String × Value)} {name : String}

/-- A field that is left out is not found, and every other one is. -/
lemma lookup_filter (fields : List (String × Value)) (leaves : String → Bool) (name : String) :
    (fields.filter fun f => !leaves f.1).lookup name =
      if leaves name = true then none else fields.lookup name := by
  induction fields with
  | nil => simp
  | cons f fields ih =>
    obtain ⟨key, v⟩ := f
    rw [List.filter_cons, List.lookup_cons]
    by_cases hname : name = key
    · subst hname
      cases hleaves : leaves name <;> simp [hleaves, ih]
    · have hne : (name == key) = false := beq_false_of_ne hname
      cases hleaves : leaves key <;> simp [List.lookup_cons, hne, ih]

/-- A field is read even if it is left out, if it holds its default then. -/
lemma withDefault_slotOf {α : Type} {v : Value} {decode : Value → Option α} {a default : α}
    (hlookup : fields.lookup name = some v) (hread : decode v = some a)
    (hdefault : leaves name = true → a = default) :
    (slotOf (fields.filter fun f => !leaves f.1) name).withDefault default decode = some a := by
  rw [slotOf, lookup_filter, hlookup]
  split_ifs with hleaves
  · exact congrArg some (hdefault hleaves).symm
  · exact hread

end Leaving

end Json

namespace Toml

/-! ### Tables as records -/

/-- A field as records are read from it. -/
def Field.toJson : Field → Json.Value
  | text s => .text s
  | texts items => .ofList .text items

/-- The fields of a table as those of a record. -/
def recordFields (fields : List (String × Field)) : List (String × Json.Value) :=
  fields.map fun f => (f.1, f.2.toJson)

/-- The items of a list are read one by one. -/
lemma itemsToJson_eq (vs : List Value) : itemsToJson vs = vs.map Value.toJson := by
  induction vs with
  | nil => rfl
  | cons v vs ih => rw [itemsToJson, ih, List.map_cons]

/-- The members of a table are read one by one. -/
lemma membersToJson_eq (ms : Members) : membersToJson ms = ms.map fun m => (m.1, m.2.toJson) := by
  induction ms with
  | nil => rfl
  | cons m ms ih => rw [membersToJson, ih, List.map_cons]

/-- Records are read from the value of a field as from the field. -/
lemma toJson_value (field : Field) : field.value.toJson = field.toJson := by
  cases field with
  | text s => rfl
  | texts items =>
    rw [Field.value, Field.toJson, Value.toJson, itemsToJson_eq, List.map_map, Json.Value.ofList]
    refine congrArg Json.Value.list (List.map_congr_left ?_)
    intro item _
    rw [Function.comp_apply, Value.toJson]

/-- The tables of a document are read as records. -/
lemma toJson_tableMembers (tables : List (String × List (String × Field))) :
    (Value.table .header (tableMembers tables)).toJson =
      .record (tables.map fun t => (t.1, .record (recordFields t.2))) := by
  rw [Value.toJson, membersToJson_eq, tableMembers, List.map_map]
  refine congrArg Json.Value.record (List.map_congr_left ?_)
  intro t _
  simp [Value.toJson, membersToJson_eq, members, recordFields, toJson_value, Function.comp_def]

/-- The fields that are not left out are read. -/
lemma recordFields_filter (fields : List (String × Field)) (leaves : String → Bool) :
    recordFields (fields.filter fun f => !leaves f.1) =
      (recordFields fields).filter fun f => !leaves f.1 := by
  rw [recordFields, recordFields, List.filter_map]
  rfl

/-- A table in which fields are left out still has the others. -/
lemma slots?_recordFields_filter {fields : List (String × Field)}
    (hnodup : (fields.map (·.1)).Nodup) (leaves : String → Bool) (names : List String) :
    (Json.Value.record (recordFields (fields.filter fun f => !leaves f.1))).slots? names =
      some (names.map (Json.slotOf ((recordFields fields).filter fun f => !leaves f.1))) := by
  have hnames : ((recordFields fields).map (·.1)).Nodup := by
    rw [recordFields, List.map_map]
    exact hnodup
  rw [recordFields_filter, Json.slots?_eq_map_slotOf (hnames.sublist (List.filter_sublist.map _))]

/-! ### Fields with a default -/

/-- A field of the same kind as a default is read, or the default where nothing is written. -/
def Field.orDefault (default : Field) (slot : Json.Slot) : Option Field :=
  match default with
  | text s => (slot.withDefault s Json.Value.asText?).map text
  | texts items => (slot.withDefault items (Json.Value.asList? Json.Value.asText?)).map texts

/-- A text is read if the slot gives it, with the default in place of nothing. -/
@[simp] lemma Field.orDefault_text_eq_some_iff {default s : String} {slot : Json.Slot} :
    (text default).orDefault slot = some (text s) ↔
      slot.withDefault default Json.Value.asText? = some s := by
  simp [orDefault]

/-- So are texts. -/
@[simp] lemma Field.orDefault_texts_eq_some_iff {default items : List String}
    {slot : Json.Slot} : (texts default).orDefault slot = some (texts items) ↔
      slot.withDefault default (Json.Value.asList? Json.Value.asText?) = some items := by
  simp [orDefault]

/-- Two fields have one name, and one kind of value. -/
def Field.Alike : String × Field → String × Field → Prop
  | (name, text _), (name', text _) => name = name'
  | (name, texts _), (name', texts _) => name = name'
  | _, _ => False

section Defaults

variable {fields defaults : List (String × Field)} {leaves : String → Bool}

/-- Fields that are alike have one name. -/
lemma Field.Alike.name_eq {f d : String × Field} (h : Field.Alike f d) : f.1 = d.1 := by
  obtain ⟨name, s | items⟩ := f <;> obtain ⟨name', s' | items'⟩ := d
  · exact h
  · exact h.elim
  · exact h.elim
  · exact h

/-- A field is read with the default of a field that is alike, if it is left out only where it holds
the default. -/
lemma Field.Alike.orDefault_slotOf {f d : String × Field} (h : Field.Alike f d)
    {rows : List (String × Json.Value)} (hlookup : rows.lookup f.1 = some f.2.toJson)
    (hdefault : leaves f.1 = true → f = d) :
    d.2.orDefault (Json.slotOf (rows.filter fun r => !leaves r.1) f.1) = some f.2 := by
  obtain ⟨name, s | items⟩ := f <;> obtain ⟨name', s' | items'⟩ := d
  · have hs : leaves name = true → s = s' :=
      fun hleaves => Field.text.inj (Prod.mk.inj (hdefault hleaves)).2
    exact orDefault_text_eq_some_iff.mpr (Json.withDefault_slotOf hlookup rfl hs)
  · exact h.elim
  · exact h.elim
  · have hitems : leaves name = true → items = items' :=
      fun hleaves => Field.texts.inj (Prod.mk.inj (hdefault hleaves)).2
    exact orDefault_texts_eq_some_iff.mpr
      (Json.withDefault_slotOf hlookup (Json.asList?_ofList fun _ _ => rfl) hitems)

/-- **The fields of a table are read with their defaults**, if they are left out only where they
hold them. -/
lemma forall₂_orDefault (hnodup : (fields.map (·.1)).Nodup)
    (halike : List.Forall₂ Field.Alike fields defaults)
    (h : ∀ f ∈ fields, leaves f.1 = true → f ∈ defaults) :
    List.Forall₂ (fun f d => d.2.orDefault
      (Json.slotOf ((recordFields fields).filter fun r => !leaves r.1) f.1) = some f.2)
      fields defaults := by
  have hnames : ((recordFields fields).map (·.1)).Nodup := by
    rw [recordFields, List.map_map]
    exact hnodup
  have hdefaults : fields.map (·.1) = defaults.map (·.1) := by
    rw [← List.forall₂_eq_eq_eq, List.forall₂_map_left_iff, List.forall₂_map_right_iff]
    exact halike.imp fun _ _ hfd => hfd.name_eq
  rw [List.forall₂_iff_zip] at halike ⊢
  refine ⟨halike.1, fun {f d} hmem => ?_⟩
  obtain ⟨hf, hd⟩ := List.of_mem_zip hmem
  have hfd := halike.2 hmem
  have hlookup : (recordFields fields).lookup f.1 = some f.2.toJson :=
    Json.lookup_of_mem hnames (List.mem_map_of_mem hf)
  refine hfd.orDefault_slotOf hlookup ?_
  intro hleaves
  exact List.inj_on_of_nodup_map (hdefaults ▸ hnodup) (h f hf hleaves) hd hfd.name_eq

end Defaults

/-! ### What is left out -/

/-- A choice of tables, and of fields of tables, that a document leaves out. -/
structure Omission where
  table : String → Bool
  /-- Whether a table is without a field. -/
  field : (table name : String) → Bool

section Omission

variable {o : Omission} {tables : List (String × List (String × Field))} {table name : String}

namespace Omission

/-- Whether a field is left out, alone or with its table. -/
def leavesOut (o : Omission) (table name : String) : Bool := o.table table || o.field table name

/-- The fields of a table that is left out are left out. -/
lemma leavesOut_of_table (h : o.table table = true) (name : String) :
    o.leavesOut table name = true := by
  rw [leavesOut, h, Bool.true_or]

/-- A field that is left out alone is left out. -/
lemma leavesOut_of_field (h : o.field table name = true) : o.leavesOut table name = true := by
  rw [leavesOut, h, Bool.or_true]

/-- The tables without what is left out. -/
def rest (o : Omission) (tables : List (String × List (String × Field))) :
    List (String × List (String × Field)) :=
  (tables.filter fun t => !o.table t.1).map fun t => (t.1, t.2.filter fun f => !o.field t.1 f.1)

/-- All tables as records without the fields that are left out. -/
def records (o : Omission) (tables : List (String × List (String × Field))) :
    List (String × Json.Value) :=
  tables.map fun t => (t.1, .record (recordFields (t.2.filter fun f => !o.field t.1 f.1)))

/-- A document without what is left out is read as the records of the other tables. -/
lemma toJson_rest (o : Omission) (tables : List (String × List (String × Field))) :
    (Value.table .header (tableMembers (o.rest tables))).toJson =
      .record ((o.records tables).filter fun t => !o.table t.1) := by
  rw [toJson_tableMembers, rest, records, List.map_map, List.filter_map]
  rfl

end Omission

/-- Of plain names, some are plain. -/
lemma PlainNames.sublist {names names' : List String} (h : PlainNames names)
    (hsub : names'.Sublist names) : PlainNames names' :=
  ⟨h.nodup.sublist hsub, fun name hname => h.bare name (hsub.subset hname)⟩

/-- What is left is named as plainly as before. -/
lemma PlainlyNamed.rest (h : PlainlyNamed tables) (o : Omission) :
    PlainlyNamed (o.rest tables) := by
  refine ⟨?_, ?_⟩
  · have hnames : (o.rest tables).map (·.1) = (tables.filter fun t => !o.table t.1).map (·.1) := by
      rw [Omission.rest, List.map_map]
      rfl
    rw [hnames]
    exact h.names.sublist (List.filter_sublist.map _)
  · intro t ht
    obtain ⟨t', ht', rfl⟩ := List.mem_map.mp ht
    exact (h.fields t' (List.mem_of_mem_filter ht')).sublist (List.filter_sublist.map _)

end Omission

end Toml

end SectionLedger
