import Mathlib
import SectionLedger.Command.Compile
import SectionLedger.Proofs.Directory.ReadBack
import SectionLedger.Proofs.Toml.Omission

/-!
# Saved settings are loaded again

Each record of settings is read from the fields of its table, even if fields are left out that
hold their defaults (`Tool.ofJson?_leaving`, `Options.ofJson?_leaving`); and only the default record
holds defaults in all of them, so that the whole table may be left out as well.  The defaults of the
fields, of the records and of the settings are thus the same ones.  With the documents read back
(`Toml.read?_of_laysOut`) it follows that settings are read from every document that leaves out
nothing but defaults (`Settings.AbridgedIn.ofToml?_eq`), among them the one they are saved as.
-/

namespace SectionLedger

open Json Toml

/-! ### Records of settings -/

namespace Tool

/-- The fields of a compiler. -/
def fields (t : Tool) : List (String × Field) :=
  fieldNames.zip [.text t.binary, .text t.stem, .text t.sourceExtension, .text t.listingExtension]

variable {t : Tool} {leaves : String → Bool}

/-- Only the default compiler holds its default in every field. -/
lemma eq_default (h : ∀ f ∈ t.fields, f ∈ ({} : Tool).fields) : t = {} := by
  cases t
  simpa [fields, fieldNames] using h

/-- A compiler is read, if the fields that are left out hold their defaults. -/
lemma ofJson?_leaving (h : ∀ f ∈ t.fields, leaves f.1 = true → f ∈ ({} : Tool).fields) :
    ofJson? (.record (recordFields (t.fields.filter fun f => !leaves f.1))) = some t := by
  have hnodup : (t.fields.map (·.1)).Nodup := (by decide : fieldNames.Nodup)
  have halike : List.Forall₂ Field.Alike t.fields ({} : Tool).fields := by
    simp [fields, fieldNames, Field.Alike]
  have hread := forall₂_orDefault hnodup halike h
  rw [ofJson?, slots?_recordFields_filter hnodup]
  -- from here on it does not matter how the fields were written
  generalize (recordFields t.fields).filter (fun r => !leaves r.1) = rows at hread ⊢
  simp only [fields, fieldNames, List.zip_cons_cons, List.forall₂_cons,
    Field.orDefault_text_eq_some_iff] at hread
  simp [fieldNames, hread]

end Tool

namespace Options

/-- The fields of options. -/
def fields (o : Options) : List (String × Field) :=
  fieldNames.zip
    [.text o.standard, .text o.processor, .texts o.optimizations, .texts o.dependent]

variable {o : Options} {leaves : String → Bool}

/-- Only the default options hold their default in every field. -/
lemma eq_default (h : ∀ f ∈ o.fields, f ∈ ({} : Options).fields) : o = {} := by
  cases o
  simpa [fields, fieldNames] using h

/-- Options are read, if the fields that are left out hold their defaults. -/
lemma ofJson?_leaving (h : ∀ f ∈ o.fields, leaves f.1 = true → f ∈ ({} : Options).fields) :
    ofJson? (.record (recordFields (o.fields.filter fun f => !leaves f.1))) = some o := by
  have hnodup : (o.fields.map (·.1)).Nodup := (by decide : fieldNames.Nodup)
  have halike : List.Forall₂ Field.Alike o.fields ({} : Options).fields := by
    simp [fields, fieldNames, Field.Alike]
  have hread := forall₂_orDefault hnodup halike h
  rw [ofJson?, slots?_recordFields_filter hnodup]
  generalize (recordFields o.fields).filter (fun r => !leaves r.1) = rows at hread ⊢
  simp only [fields, fieldNames, List.zip_cons_cons, List.forall₂_cons,
    Field.orDefault_text_eq_some_iff, Field.orDefault_texts_eq_some_iff] at hread
  simp [fieldNames, hread]

end Options

namespace Settings

variable {s : Settings} {o : Omission} {leaves : String → Bool} {document : String}

/-- The fields of the record that says where the ledger is kept. -/
def pathFields (s : Settings) : List (String × Field) := [("path", .text s.ledgerPath)]

/-- Only the default path is the default. -/
lemma ledgerPath_eq_default (h : ∀ f ∈ s.pathFields, f ∈ ({} : Settings).pathFields) :
    s.ledgerPath = "sections.json" := by
  simpa [pathFields] using h

/-- The path of the ledger is read, if it is left out only where it is the default. -/
lemma pathOfJson?_leaving
    (h : ∀ f ∈ s.pathFields, leaves f.1 = true → f ∈ ({} : Settings).pathFields) :
    pathOfJson? (.record (recordFields (s.pathFields.filter fun f => !leaves f.1))) =
      some s.ledgerPath := by
  have hnodup : (s.pathFields.map (·.1)).Nodup := (by decide : ["path"].Nodup)
  have halike : List.Forall₂ Field.Alike s.pathFields ({} : Settings).pathFields := by
    simp [pathFields, Field.Alike]
  have hread := forall₂_orDefault hnodup halike h
  rw [pathOfJson?, slots?_recordFields_filter hnodup]
  generalize (recordFields s.pathFields).filter (fun r => !leaves r.1) = rows at hread ⊢
  simp only [pathFields, List.forall₂_cons, Field.orDefault_text_eq_some_iff] at hread
  simp [hread]

/-! ### Tables of settings -/

/-- Each table of settings holds the fields of a record. -/
lemma toTables_eq (s : Settings) :
    s.toTables =
      [("compiler", s.tool.fields), ("options", s.options.fields), ("store", s.pathFields)] := rfl

/-- The tables of settings and their fields have plain names. -/
lemma plainlyNamed_toTables (s : Settings) : PlainlyNamed s.toTables := by
  have htables : PlainNames ["compiler", "options", "store"] :=
    ⟨by decide, by simp [IsBareName, isBare]⟩
  have htool : PlainNames Tool.fieldNames :=
    ⟨by decide, by simp [Tool.fieldNames, IsBareName, isBare]⟩
  have hoptions : PlainNames Options.fieldNames :=
    ⟨by decide, by simp [Options.fieldNames, IsBareName, isBare]⟩
  have hpath : PlainNames ["path"] := ⟨by decide, by simp [IsBareName, isBare]⟩
  rw [toTables_eq]
  refine ⟨htables, ?_⟩
  simp only [List.forall_mem_cons]
  exact ⟨htool, hoptions, hpath, by simp⟩

/-- All fields of settings, each with the name of its table. -/
def allFields (s : Settings) : List (String × String × Field) :=
  s.toTables.flatMap fun t => t.2.map fun f => (t.1, f)

/-- Every field that is left out, alone or with its table, holds the value that it has in the
default settings. -/
def LeavesOutDefaults (s : Settings) (o : Omission) : Prop :=
  ∀ f ∈ s.allFields, o.leavesOut f.1 f.2.1 = true → f ∈ ({} : Settings).allFields

instance (s : Settings) (o : Omission) : Decidable (s.LeavesOutDefaults o) :=
  inferInstanceAs (Decidable (∀ f ∈ _, _ → _))

/-- No two records of settings have the same name. -/
lemma nodup_records (s : Settings) (o : Omission) :
    ((o.records s.toTables).map (·.1)).Nodup :=
  (by decide : ["compiler", "options", "store"].Nodup)

section Leaving

variable {table : String} {fields defaults : List (String × Field)}

/-- What is left out of a table is among its defaults. -/
lemma LeavesOutDefaults.mem_defaults (h : s.LeavesOutDefaults o)
    (hfields : (table, fields) ∈ s.toTables)
    (hdefaults : (table, defaults) ∈ ({} : Settings).toTables) :
    ∀ f ∈ fields, o.leavesOut table f.1 = true → f ∈ defaults := by
  intro f hf hleaves
  have hmem : (table, f) ∈ ({} : Settings).allFields :=
    h (table, f) (List.mem_flatMap.mpr ⟨_, hfields, List.mem_map_of_mem hf⟩) hleaves
  obtain ⟨t, ht, hfield⟩ := List.mem_flatMap.mp hmem
  obtain ⟨f', hf', heq⟩ := List.mem_map.mp hfield
  obtain ⟨rfl, rfl⟩ := Prod.mk.inj heq
  -- no other table has the name
  have htable : t = (t.1, defaults) :=
    List.inj_on_of_nodup_map (plainlyNamed_toTables {}).names.nodup ht hdefaults rfl
  rwa [htable] at hf'

/-- A record is read, if what its table leaves out holds its default.  If the table itself is left
out, the record is the default one, because it holds the default in every field. -/
lemma withDefault_table {α : Type} {read : Json.Value → Option α} {a default : α}
    (h : s.LeavesOutDefaults o) (hfields : (table, fields) ∈ s.toTables)
    (hdefaults : (table, defaults) ∈ ({} : Settings).toTables)
    (hread : (∀ f ∈ fields, o.field table f.1 = true → f ∈ defaults) →
      read (.record (recordFields (fields.filter fun f => !o.field table f.1))) = some a)
    (hdefault : (∀ f ∈ fields, f ∈ defaults) → a = default) :
    (slotOf ((o.records s.toTables).filter fun t => !o.table t.1) table).withDefault default read =
      some a := by
  have hlookup := Json.lookup_of_mem (nodup_records s o) (List.mem_map_of_mem hfields)
  have hmem := h.mem_defaults hfields hdefaults
  refine withDefault_slotOf hlookup (hread ?_) fun htable => hdefault ?_
  · exact fun f hf hfield => hmem f hf (Omission.leavesOut_of_field hfield)
  · exact fun f hf => hmem f hf (Omission.leavesOut_of_table htable f.1)

end Leaving

/-- Settings are read from their records, if what is left out holds its default. -/
lemma ofValue?_leaving (h : s.LeavesOutDefaults o) :
    ofValue? cutSurplus (.record ((o.records s.toTables).filter fun t => !o.table t.1)) =
      some s := by
  have hslots := slots?_eq_map_slotOf
    ((nodup_records s o).sublist (List.filter_sublist.map _ : List.Sublist
      (((o.records s.toTables).filter fun t => !o.table t.1).map (·.1)) _))
    ["compiler", "options", "store"]
  have htool : (slotOf ((o.records s.toTables).filter fun t => !o.table t.1)
      "compiler").withDefault {} (fun v => Tool.ofJson? (cutSurplus 4 v)) = some s.tool :=
    withDefault_table h (by simp [toTables_eq]) (by simp [toTables_eq]) Tool.ofJson?_leaving
      Tool.eq_default
  have hoptions : (slotOf ((o.records s.toTables).filter fun t => !o.table t.1)
      "options").withDefault {} (fun v => Options.ofJson? (cutSurplus 4 v)) = some s.options :=
    withDefault_table h (by simp [toTables_eq]) (by simp [toTables_eq]) Options.ofJson?_leaving
      Options.eq_default
  have hpath : (slotOf ((o.records s.toTables).filter fun t => !o.table t.1)
      "store").withDefault "sections.json" (fun v => pathOfJson? (cutSurplus 1 v)) =
        some s.ledgerPath :=
    withDefault_table h (by simp [toTables_eq]) (by simp [toTables_eq]) pathOfJson?_leaving
      ledgerPath_eq_default
  have hcut : cutSurplus 3 (.record ((o.records s.toTables).filter fun t => !o.table t.1)) =
      .record ((o.records s.toTables).filter fun t => !o.table t.1) := rfl
  rw [ofValue?, hcut, hslots]
  simp [htool, hoptions, hpath]

/-! ### Documents of settings -/

/-- A document of settings that leaves out fields and whole tables, all of which hold their
defaults.  Blank lines may stand anywhere. -/
def AbridgedIn (s : Settings) (document : String) : Prop :=
  ∃ (o : Omission) (parts : List Part), s.LeavesOutDefaults o ∧
    LaysOut (o.rest s.toTables) parts ∧ document = Toml.document parts

/-- Settings are saved with nothing left out. -/
lemma abridgedIn_toToml (s : Settings) : s.AbridgedIn s.toToml := by
  obtain ⟨parts, hlays, hprint⟩ := exists_laysOut_printTables s.toTables
  let o : Omission := ⟨fun _ => false, fun _ _ => false⟩
  have hrest : o.rest s.toTables = s.toTables := by
    simp [o, Omission.rest]
  refine ⟨o, parts, ?_, hrest.symm ▸ hlays, ?_⟩
  · intro f _ hleaves
    contradiction
  · rw [toToml, hprint, Toml.document]

/-- **Settings are read from every document that leaves out nothing but defaults.** -/
theorem AbridgedIn.ofToml?_eq (h : s.AbridgedIn document) : ofToml? document = some s := by
  obtain ⟨o, parts, hdefaults, hlays, rfl⟩ := h
  have hread := read?_of_laysOut hlays (s.plainlyNamed_toTables.rest o)
  rw [ofToml?, hread, Option.bind_eq_bind, Option.bind_some, Omission.toJson_rest,
    ofValue?_leaving hdefaults]

end Settings

/-! ### Files of settings -/

namespace Workspace

variable {w : Workspace} {path document : String} {s : Settings}

/-- A document is written to a file that lasts. -/
lemma exists_writeFile (h : w.directory.Lasting path) (document : String) :
    ∃ w', w.writeFile path document = .ok w' ∧
      w'.directory.read path = .ok document.toUTF8 := by
  obtain ⟨d, hwrite⟩ := Directory.exists_write h.writable document.toUTF8
  refine ⟨{ w with directory := d }, ?_, h.read_write hwrite⟩
  rw [writeFile, Directory.writeText, hwrite]

/-- Settings are loaded from the document in a file, whether the file is named or is the usual
one. -/
lemma loadSettings_of_read (hread : w.directory.read path = .ok document.toUTF8)
    (hsettings : Settings.ofToml? document = some s) {config : Option String}
    (hconfig : config.getD Settings.defaultPath = path) : w.loadSettings config = .ok s := by
  have hload : w.readSettings path = .ok s := by
    rw [readSettings, Directory.readText_of_read hread (Text.readUtf8?_toUTF8 document)]
    simp only [hsettings]
  cases config with
  | some config =>
    obtain rfl : config = path := hconfig
    exact hload
  | none =>
    obtain rfl : Settings.defaultPath = path := hconfig
    rw [loadSettings, if_pos (Directory.has_of_read hread), hload]

end Workspace

namespace Settings

/-- **Settings that are saved are loaded again**, and so are settings of which the document leaves
out fields or whole tables that hold their defaults.  They are read from the text, and so they are
loaded from every file that keeps the text. -/
theorem loadSettings_of_written {s : Settings} {document : String}
    (h : document = s.toToml ∨ s.AbridgedIn document) :
    ofToml? document = some s ∧
      ∀ (w : Workspace) (path : String), w.directory.Lasting path →
        ∃ w', w.writeFile path document = .ok w' ∧
          ∀ config : Option String, config.getD defaultPath = path →
            w'.loadSettings config = .ok s := by
  have habridged : s.AbridgedIn document := by
    rcases h with rfl | h
    · exact s.abridgedIn_toToml
    · exact h
  refine ⟨habridged.ofToml?_eq, ?_⟩
  intro w path hlasting
  obtain ⟨w', hwrite, hread⟩ := Workspace.exists_writeFile hlasting document
  refine ⟨w', hwrite, ?_⟩
  intro config hconfig
  exact Workspace.loadSettings_of_read hread habridged.ofToml?_eq hconfig

/-- A text that begins with an apostrophe and stands between three, a list whose first text goes on
over several lines, and control characters come back.  All other fields are left out, those of the
ledger with their table, and blank lines stand at both ends. -/
theorem loadSettings_of_written_awkward_texts :
    let s : Settings :=
      { tool := { stem := "'\\" }, options := { dependent := ["\"\n", "\x00\t"] } }
    let document := "\n[compiler]\nstem = ''''\\'''\n[options]\ndependent = [\n" ++
      "    '''\n\"\n''',\n    \"\\u0000\\t\",\n]\n\n"
    let w : Workspace := ⟨.empty ["home"], [], ⟨0, 0⟩⟩
    s.AbridgedIn document ∧ w.directory.Lasting defaultPath ∧
      ofToml? document = some s ∧ ofToml? s.toToml = some s ∧
      ∃ w', w.writeFile defaultPath document = .ok w' ∧ w'.loadSettings none = .ok s := by
  intro s document w
  let o : Omission :=
    ⟨fun table => table == "store", fun _ name => decide (name ∉ ["stem", "dependent"])⟩
  let parts : List Part :=
    [.blank, .header "compiler", .binding "stem" (.text "'\\"), .header "options",
      .binding "dependent" (.texts ["\"\n", "\x00\t"]), .blank]
  have habridged : s.AbridgedIn document :=
    ⟨o, parts, by decide, by rfl, by decide⟩
  have hnone : w.directory.get? ["home", defaultPath] = none := rfl
  have hlasting : w.directory.Lasting defaultPath :=
    ⟨["home", defaultPath], by decide +kernel, by simp [hnone], by simp [hnone]⟩
  obtain ⟨hread, hload⟩ := loadSettings_of_written (.inr habridged)
  obtain ⟨w', hwrite, hsettings⟩ := hload w defaultPath hlasting
  exact ⟨habridged, hlasting, hread, (loadSettings_of_written (.inl rfl)).1, w', hwrite,
    hsettings none rfl⟩

end Settings

end SectionLedger
