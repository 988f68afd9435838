import Mathlib
import SectionLedger.Display.Decorated
import SectionLedger.Display.Survey
import SectionLedger.Proofs.Json.Record

/-!
# What is shown in JSON is read back

Spans, sections, messages, listings, decorations and surveys that are shown as JSON, in the compact
or the pretty form, are read back as they were (`Format.read_display`).  For each record this takes
two facts about its JSON form: it is plain, so every form of it is read as the same value, and the
record is read from it (`Json.ReadsBack`).  The texts may be any, the numbers have to fit a machine
word, and what is optional may be there or not.
-/

namespace SectionLedger

open Json

namespace Json

/-- The value of a type that a JSON text denotes. -/
def readAs? {α : Type} (decode : Value → Option α) (text : String) : Option α :=
  (read? text).bind decode

/-- What is shown in a form of JSON is read back. -/
lemma ReadsBack.readAs?_render {α : Type} {encode : α → Value} {decode : Value → Option α} {a : α}
    (h : ReadsBack encode decode a) {format : Format} (hformat : format ≠ .text)
    (onTerminal : String) : readAs? decode (format.render onTerminal (encode a)) = some a := by
  have hread : read? (format.render onTerminal (encode a)) = some (encode a) := by
    cases format with
    | text => exact absurd rfl hformat
    | json => exact read?_compact h.plain
    | jsonPretty => exact read?_pretty h.plain
  rw [readAs?, hread, Option.bind_some, h.decode_encode]

end Json

/-! ### Spans and decorations -/

namespace Span

/-- A span whose line numbers fit a machine word. -/
structure FitsWords (s : Span) : Prop where
  first : s.first < Text.wordLimit
  last : s.last < Text.wordLimit

/-- A span reads back if its line numbers fit. -/
lemma readsBack {s : Span} (h : s.FitsWords) : ReadsBack toJson ofJson? s := by
  refine .of_record ["kind", "start_line", "end_line"] [.text s.kind, .nat s.first, .nat s.last]
    rfl rfl (by decide) (by simp [Key.plain_name_iff]) ?_ fun hslots => ?_
  · simpa using ⟨.text _, .nat _, .nat _⟩
  · rw [ofJson?, hslots]
    simp [Slot.required, Value.asText?, Value.asWord?, h.first, h.last]

end Span

/-- A nesting reads back. -/
lemma Nesting.readsBack (n : Nesting) : ReadsBack toJson ofJson? n :=
  ⟨.text n.label, by cases n <;> decide⟩

namespace Decoration

/-- A decoration whose line numbers fit a machine word. -/
structure FitsWords (d : Decoration) : Prop where
  line : d.line < Text.wordLimit
  first : d.first < Text.wordLimit
  last : d.last < Text.wordLimit

/-- A decoration reads back if its line numbers fit. -/
lemma readsBack {d : Decoration} (h : d.FitsWords) : ReadsBack toJson ofJson? d := by
  have hnesting : ReadsBack (Value.ofOption Nesting.toJson)
      (fun v => Slot.nullable Nesting.ofJson? (.given v)) d.nesting :=
    .ofOption (fun _ => nofun) Nesting.readsBack
  have hkind := readsBack_optionalText d.kind
  have hstatus := Status.readsBack_optional d.status
  refine .of_record fieldNames _ rfl rfl (by decide) (by simp [fieldNames, Key.plain_name_iff]) ?_
    fun hslots => ?_
  · simp only [List.forall_mem_cons]
    exact ⟨.nat _, .text _, .nat _, .nat _, hnesting.plain, hkind.plain, hstatus.plain, .bool _,
      by simp⟩
  · rw [ofJson?, hslots]
    simp [Slot.required, Value.asText?, Value.asWord?, Value.asBool?, h.line, h.first, h.last,
      hnesting.decode_encode, hkind.decode_encode, hstatus.decode_encode]

end Decoration

/-! ### Messages and listings -/

/-- A message reads back if its line number fits. -/
lemma Diagnostic.readsBack {d : Diagnostic} (h : d.line < Text.wordLimit) :
    ReadsBack toJson ofJson? d := by
  refine .of_record ["source_line", "text"] [.nat d.line, .text d.text] rfl rfl (by decide)
    (by simp [Key.plain_name_iff]) ?_ fun hslots => ?_
  · simpa using ⟨.nat _, .text _⟩
  · rw [ofJson?, hslots]
    simp [Slot.required, Value.asText?, Value.asWord?, h]

/-- A marker reads back. -/
lemma Marker.readsBack (m : Marker) : ReadsBack toJson ofJson? m := by
  refine .of_record ["class", "position"] [.text m.zone.label, .text m.edge.label] rfl rfl
    (by decide) (by simp [Key.plain_name_iff]) ?_ fun _ => ?_
  · simpa using ⟨.text _, .text _⟩
  · obtain ⟨zone, edge⟩ := m
    cases zone <;> cases edge <;> decide

/-- A line of a listing reads back if its line number fits. -/
lemma ListingLine.readsBack {l : ListingLine} (h : l.line < Text.wordLimit) :
    ReadsBack toJson ofJson? l := by
  have hmarker : ReadsBack (Value.ofOption Marker.toJson)
      (fun v => Slot.nullable Marker.ofJson? (.given v)) l.marker :=
    .ofOption (fun _ => nofun) Marker.readsBack
  refine .of_record ["code", "marker", "source_line"]
    [.text l.code, .ofOption Marker.toJson l.marker, .nat l.line] rfl rfl (by decide)
    (by simp [Key.plain_name_iff]) ?_ fun hslots => ?_
  · simpa using ⟨.text _, hmarker.plain, .nat _⟩
  · rw [ofJson?, hslots]
    simp [Slot.required, Value.asText?, Value.asWord?, h, hmarker.decode_encode]

/-! ### Surveys -/

namespace FileSurvey

/-- The outcome for a file whose counts fit a machine word. -/
structure FitsWords (f : FileSurvey) : Prop where
  lines : f.lines < Text.wordLimit
  sections : f.sections < Text.wordLimit

/-- The outcome for a file reads back if its counts fit. -/
lemma readsBack {f : FileSurvey} (h : f.FitsWords) : ReadsBack toJson ofJson? f := by
  have hfailure := readsBack_optionalText f.failure
  refine .of_record ["path", "lines", "sections", "error"]
    [.text f.path, .nat f.lines, .nat f.sections, .ofOption .text f.failure] rfl rfl (by decide)
    (by simp [Key.plain_name_iff]) ?_ fun hslots => ?_
  · simpa using ⟨.text _, .nat _, .nat _, hfailure.plain⟩
  · rw [ofJson?, hslots]
    simp [Slot.required, Value.asText?, Value.asWord?, h.lines, h.sections,
      hfailure.decode_encode]

end FileSurvey

namespace Survey

/-- A survey whose counts fit a machine word. -/
structure FitsWords (s : Survey) : Prop where
  files : ∀ f ∈ s.files, f.FitsWords
  failures : s.failures < Text.wordLimit

/-- A survey reads back if its counts fit. -/
lemma readsBack {s : Survey} (h : s.FitsWords) : ReadsBack toJson ofJson? s := by
  have hfiles : ReadsBack (Value.ofList FileSurvey.toJson) (Value.asList? FileSurvey.ofJson?)
      s.files := .ofList fun f hf => FileSurvey.readsBack (h.files f hf)
  refine .of_record ["files", "failures"] [.ofList FileSurvey.toJson s.files, .nat s.failures]
    rfl rfl (by decide) (by simp [Key.plain_name_iff]) ?_ fun hslots => ?_
  · simpa using ⟨hfiles.plain, .nat _⟩
  · rw [ofJson?, hslots]
    simp [Slot.required, Value.asWord?, hfiles.decode_encode, h.failures]

end Survey

/-! ### All displays -/

/-- **What is shown in JSON is read back.**  In either form of JSON, and whatever the colour of the
terminal, lists of spans, sections, messages, listing lines and decorations and surveys are shown as
a text that is read as exactly the same list or survey, if their numbers fit a machine word. -/
theorem Format.read_display {format : Format} (hformat : format ≠ .text) (colour : Bool) :
    (∀ spans : List Span, (∀ s ∈ spans, s.FitsWords) →
      readAs? (Value.asList? Span.ofJson?) (Span.listDisplay format colour spans) = some spans) ∧
    (∀ sections : List Section, (∀ s ∈ sections, s.FitsWords) →
      readAs? (Value.asList? Section.ofJson?) (Section.listDisplay format colour sections) =
        some sections) ∧
    (∀ ds : List Diagnostic, (∀ d ∈ ds, d.line < Text.wordLimit) →
      readAs? (Value.asList? Diagnostic.ofJson?) (Diagnostic.listDisplay format colour ds) =
        some ds) ∧
    (∀ ls : List ListingLine, (∀ l ∈ ls, l.line < Text.wordLimit) →
      readAs? (Value.asList? ListingLine.ofJson?) (ListingLine.listDisplay format colour ls) =
        some ls) ∧
    (∀ ds : List Decoration, (∀ d ∈ ds, d.FitsWords) →
      readAs? (Value.asList? Decoration.ofJson?) (Decoration.listDisplay format colour ds) =
        some ds) ∧
    ∀ s : Survey, s.FitsWords →
      readAs? Survey.ofJson? (Survey.listDisplay format colour s) = some s := by
  refine ⟨fun spans h => ?_, fun sections h => ?_, fun ds h => ?_, fun ls h => ?_, fun ds h => ?_,
    fun s h => ?_⟩
  · exact (ReadsBack.ofList fun s hs => Span.readsBack (h s hs)).readAs?_render hformat _
  · exact (ReadsBack.ofList fun s hs => Section.readsBack (h s hs)).readAs?_render hformat _
  · exact (ReadsBack.ofList fun d hd => Diagnostic.readsBack (h d hd)).readAs?_render hformat _
  · exact (ReadsBack.ofList fun l hl => ListingLine.readsBack (h l hl)).readAs?_render hformat _
  · exact (ReadsBack.ofList fun d hd => Decoration.readsBack (h d hd)).readAs?_render hformat _
  · exact (Survey.readsBack h).readAs?_render hformat _

/-- Quotes, backslashes, control characters, braces, characters outside the basic plane and the
greatest numbers are read back, and so are values that are there beside values that are not. -/
theorem Format.read_display_of_awkward_values :
    let top := Text.wordLimit - 1
    let span : Span := ⟨⟨top, 0⟩, "\"\\"⟩
    let kept : Section := ⟨span, top, some .doesNotCompile, "\x00\n,", "\t\x7b\x7d", "😀", ""⟩
    let bare : Section := { kept with status := none }
    let message : Diagnostic := ⟨top, "\\"⟩
    let begun : Decoration :=
      ⟨1, "\x1f é", 1, top, some .inner, some "\x7f", some .compiledWithWarnings, false⟩
    let ended : Decoration := ⟨top, "", 0, 0, none, none, none, true⟩
    let listing : List ListingLine := [⟨"null", some ⟨.header, .after⟩, 0⟩, ⟨"\r", none, top⟩]
    let survey : Survey := ⟨[⟨"a\"b.c", top, 0, some "\u2028"⟩, ⟨"/ü.c", 3, 1, none⟩], 1⟩
    (∀ s ∈ [kept, bare], s.FitsWords) ∧ (∀ d ∈ [begun, ended], d.FitsWords) ∧ survey.FitsWords ∧
      readAs? (Value.asList? Span.ofJson?) (Span.listDisplay .json false [span, span]) =
        some [span, span] ∧
      readAs? (Value.asList? Section.ofJson?) (Section.listDisplay .jsonPretty true [kept, bare]) =
        some [kept, bare] ∧
      readAs? (Value.asList? Diagnostic.ofJson?) (Diagnostic.listDisplay .json false [message]) =
        some [message] ∧
      readAs? (Value.asList? ListingLine.ofJson?)
        (ListingLine.listDisplay .jsonPretty true listing) = some listing ∧
      readAs? (Value.asList? Decoration.ofJson?)
        (Decoration.listDisplay .jsonPretty true [begun, ended]) = some [begun, ended] ∧
      readAs? Survey.ofJson? (Survey.listDisplay .json false survey) = some survey := by
  intro top span kept bare message begun ended listing survey
  have hkept : ∀ s ∈ [kept, bare], s.FitsWords := by
    simp only [List.forall_mem_cons]
    exact ⟨⟨by decide, by decide, by decide⟩, ⟨by decide, by decide, by decide⟩, by simp⟩
  have hlines : ∀ d ∈ [begun, ended], d.FitsWords := by
    simp only [List.forall_mem_cons]
    exact ⟨⟨by decide, by decide, by decide⟩, ⟨by decide, by decide, by decide⟩, by simp⟩
  have hsurvey : survey.FitsWords := by
    refine ⟨?_, by decide⟩
    simp only [survey, List.forall_mem_cons]
    exact ⟨⟨by decide, by decide⟩, ⟨by decide, by decide⟩, by simp⟩
  obtain ⟨hspans, -, hmessages, -, -, hsurveys⟩ := @Format.read_display .json (by decide) false
  obtain ⟨-, hsections, -, hlistings, hdecorations, -⟩ :=
    @Format.read_display .jsonPretty (by decide) true
  refine ⟨hkept, hlines, hsurvey, hspans _ ?_, hsections _ hkept, hmessages _ ?_, hlistings _ ?_,
    hdecorations _ hlines, hsurveys _ hsurvey⟩
  · simp only [List.forall_mem_cons]
    exact ⟨⟨by decide, by decide⟩, ⟨by decide, by decide⟩, by simp⟩
  · simp only [List.forall_mem_cons]
    exact ⟨by decide, by simp⟩
  · simp only [listing, List.forall_mem_cons]
    exact ⟨by decide, by decide, by simp⟩

end SectionLedger
