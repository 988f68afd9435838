import Mathlib
import SectionLedger.Proofs.Toml.Lexeme
import SectionLedger.Toml.Reader

/-!
# TOML documents read back

A document is printed part by part: headers, names with their values, and blank lines
(`Part.print`).  The reader takes one part after the other off its front (`readLines_print_append`)
and adds each to what it has read so far (`Draft.addPart`), so a document is read as its parts put
together (`read?_document`).  Where no name is used twice, the values below a header become its
table, and the tables stand in the order of their headers; blank lines add nothing wherever they
stand (`read?_of_laysOut`).
-/

namespace SectionLedger.Toml

/-! ### Values -/

/-- What is read where a field was printed. -/
def Field.value : Field → Value
  | text s => .text s
  | texts items => .list (items.map .text)

section Value

variable {s r cs : List Char} {budget : ℕ}

/-- A printed text begins with a quote or an apostrophe. -/
lemma printText_eq_cons (cs : List Char) :
    ∃ t, printText cs = '"' :: t ∨ printText cs = '\'' :: t := by
  unfold printText
  split_ifs
  · exact ⟨_, .inr rfl⟩
  · exact ⟨_, .inr rfl⟩
  · exact ⟨_, .inr rfl⟩
  · exact ⟨_, .inl rfl⟩
  · exact ⟨_, .inl rfl⟩

/-- A text is read back as a value. -/
lemma readValue_printText (depth : ℕ) (cs : List Char) (h : EndsText s) :
    readValue depth (printText cs ++ s) = some (.text (String.ofList cs), s) := by
  have hread := readText_printText cs h
  obtain ⟨t, ht | ht⟩ := printText_eq_cons cs
  · rw [ht, List.cons_append] at hread ⊢
    simp [readValue, readScalar, hread]
  · rw [ht, List.cons_append] at hread ⊢
    simp [readValue, readScalar, hread]

/-- A text is an item of a list, and what follows it says whether the list goes on. -/
lemma readItems_of_skipTrivia (depth : ℕ) (hskip : skipTrivia false s = printText cs ++ r)
    (h : EndsText r) :
    readItems (readValue depth) (budget + 1) s =
      match skipTrivia false r with
      | ',' :: s => (readItems (readValue depth) budget s).map fun parts =>
          (.text (String.ofList cs) :: parts.1, parts.2)
      | ']' :: s => some ([.text (String.ofList cs)], s)
      | _ => none := by
  rw [readItems, hskip]
  split
  · next t ht =>
    obtain ⟨t', ht' | ht'⟩ := printText_eq_cons cs
    · rw [ht'] at ht
      cases ht
    · rw [ht'] at ht
      cases ht
  · rw [readValue_printText depth cs h]
    rfl

/-- Nothing is passed over in front of a text. -/
lemma skipTrivia_printText (cs s : List Char) :
    skipTrivia false (printText cs ++ s) = printText cs ++ s := by
  obtain ⟨t, ht | ht⟩ := printText_eq_cons cs
  · rw [ht, List.cons_append]
    rfl
  · rw [ht, List.cons_append]
    rfl

/-- The lines of a list are read back as its items. -/
lemma readItems_itemLines (depth : ℕ) (items : List String) (h : items.length < budget)
    (s : List Char) :
    readItems (readValue depth) budget ('\n' :: (items.flatMap itemLine ++ ']' :: s)) =
      some (items.map .text, s) := by
  induction items generalizing budget with
  | nil =>
    obtain ⟨budget, rfl⟩ := Nat.exists_eq_add_one.mpr h
    rfl
  | cons item items ih =>
    obtain ⟨budget, rfl⟩ := Nat.exists_eq_add_one.mpr (Nat.zero_lt_of_lt h)
    have hrest := ih (Nat.lt_of_succ_lt_succ h)
    have hskip : skipTrivia false ('\n' :: ((item :: items).flatMap itemLine ++ ']' :: s)) =
        printText item.toList ++ ',' :: '\n' :: (items.flatMap itemLine ++ ']' :: s) := by
      rw [← skipTrivia_printText]
      simp [itemLine, skipTrivia, isSpace]
    rw [readItems_of_skipTrivia depth hskip (endsText_cons (by decide) (by decide) _)]
    show Option.map _ (readItems (readValue depth) budget _) = _
    rw [hrest, String.ofList_toList]
    rfl

/-- There are at least as many characters as there are items, if each is printed as some. -/
lemma length_le_length_flatMap {α : Type} {print : α → List Char} {as : List α}
    (h : ∀ a ∈ as, print a ≠ []) : as.length ≤ (as.flatMap print).length := by
  have hone : ∀ n ∈ as.map fun a => (print a).length, 1 ≤ n := by
    simpa [Nat.one_le_iff_ne_zero] using h
  have hle := List.length_le_sum_of_one_le _ hone
  rwa [List.length_map, ← List.length_flatMap] at hle

/-- A list is read back item by item. -/
lemma readValue_printTexts (depth : ℕ) (items : List String) (s : List Char) :
    readValue (depth + 1) (printTexts items ++ s) = some (.list (items.map .text), s) := by
  unfold printTexts
  split
  · rfl
  · next item =>
    have hskip := skipTrivia_printText item.toList (']' :: s)
    have hend : EndsText (']' :: s) := endsText_cons (by decide) (by decide) s
    rw [List.cons_append, List.cons_append, List.append_assoc, List.singleton_append, readValue,
      readItems_of_skipTrivia depth hskip hend, String.ofList_toList]
    rfl
  · have hlength : items.length ≤ (items.flatMap itemLine).length := by
      refine length_le_length_flatMap ?_
      intro item _
      exact List.cons_ne_nil _ _
    simp only [List.cons_append, List.append_assoc, List.nil_append]
    rw [readValue, readItems_itemLines]
    · rfl
    · simp only [List.length_cons, List.length_append]
      omega

/-- A field is read back as its value. -/
lemma readValue_print (depth : ℕ) (field : Field) (h : EndsText s) :
    readValue (depth + 1) (field.print ++ s) = some (field.value, s) := by
  cases field with
  | text item =>
    rw [Field.print, readValue_printText _ _ h, String.ofList_toList]
    rfl
  | texts items => exact readValue_printTexts depth items s

/-- A printed field does not begin with a blank. -/
lemma skipSpaces_print (field : Field) (s : List Char) :
    skipSpaces (field.print ++ s) = field.print ++ s := by
  cases field with
  | text item =>
    obtain ⟨t, ht | ht⟩ := printText_eq_cons item.toList
    · rw [Field.print, ht]
      rfl
    · rw [Field.print, ht]
      rfl
  | texts items =>
    rw [Field.print]
    unfold printTexts
    split
    · rfl
    · rfl
    · rfl

end Value

/-! ### Parts -/

/-- A part of a document as it is printed. -/
inductive Part where
  | blank
  | header (name : String)
  | binding (name : String) (field : Field)
  deriving DecidableEq

namespace Part

/-- The text of a part, with the end of its line. -/
def print : Part → List Char
  | blank => ['\n']
  | header name => '[' :: name.toList ++ [']', '\n']
  | binding name field => printBinding name field

/-- The name in a part is written without quotes. -/
def Bare : Part → Prop
  | blank => True
  | header name => IsBareName name
  | binding name _ => IsBareName name

end Part

/-- Adds a part to what has been read. -/
def Draft.addPart (d : Draft) : Part → Option Draft
  | .blank => some d
  | .header name => d.addHeader [name]
  | .binding name field => d.addValue [name] field.value

section Part

variable {name : String} {budget : ℕ} {parts : List Part}

/-- A printed header is read. -/
lemma readLine_header (h : IsBareName name) (d : Draft) (s : List Char) :
    readLine d ((Part.header name).print ++ s) = (d.addHeader [name]).map (·, s) := by
  have hkey : readKey depthLimit (name.toList ++ ']' :: '\n' :: s) =
      some ([name], ']' :: '\n' :: s) :=
    readKey_append 78 h (by rintro c ⟨⟩; rfl) (by rintro c ⟨⟩; decide)
  have hheader : readHeader (name.toList ++ ']' :: '\n' :: s) = some ([name], '\n' :: s) := by
    rw [readHeader, hkey]
    rfl
  obtain ⟨c, t, ht, hc⟩ := h.exists_cons
  rw [Part.print, List.cons_append, List.cons_append, List.append_assoc]
  show readLine d ('[' :: (name.toList ++ ']' :: '\n' :: s)) = _
  rw [ht, List.cons_append] at hheader ⊢
  rw [readLine, hheader, Option.map_eq_bind]
  · rfl
  · intro r hr
    exact ne_of_isBare (d := '[') hc rfl (List.cons.inj hr).1

/-- A printed name and its value are read. -/
lemma readLine_binding (h : IsBareName name) (field : Field) (d : Draft) (s : List Char) :
    readLine d ((Part.binding name field).print ++ s) =
      (d.addValue [name] field.value).map (·, s) := by
  have hkey : readKey depthLimit (name.toList ++ ' ' :: '=' :: ' ' :: (field.print ++ '\n' :: s)) =
      some ([name], '=' :: ' ' :: (field.print ++ '\n' :: s)) :=
    readKey_append 78 h (by rintro c ⟨⟩; rfl) (by rintro c ⟨⟩; decide)
  have hvalue : readValue depthLimit (field.print ++ '\n' :: s) = some (field.value, '\n' :: s) :=
    readValue_print 78 field (endsText_cons (by decide) (by decide) s)
  have hskip : skipSpaces (' ' :: (field.print ++ '\n' :: s)) = field.print ++ '\n' :: s :=
    skipSpaces_print field ('\n' :: s)
  have hbinding : readBinding (readValue depthLimit)
      (name.toList ++ ' ' :: '=' :: ' ' :: (field.print ++ '\n' :: s)) =
        some (([name], field.value), '\n' :: s) := by
    rw [readBinding, hkey]
    show (readValue depthLimit (skipSpaces _)).bind _ = _
    rw [hskip, hvalue]
    rfl
  obtain ⟨c, t, ht, hc⟩ := h.exists_cons
  have hprint : (Part.binding name field).print ++ s =
      name.toList ++ ' ' :: '=' :: ' ' :: (field.print ++ '\n' :: s) := by
    simp [Part.print, printBinding]
  rw [hprint]
  rw [ht, List.cons_append] at hbinding ⊢
  rw [readLine, hbinding, Option.map_eq_bind]
  · rfl
  · intro r hr
    exact ne_of_isBare (d := '[') hc rfl (List.cons.inj hr).1
  · intro r hr
    exact ne_of_isBare (d := '[') hc rfl (List.cons.inj hr).1
  · intro r hr
    exact ne_of_isBare (d := '#') hc rfl (List.cons.inj hr).1

/-- A line that is not blank is read, and then the lines after it. -/
lemma readLines_cons {c : Char} (hspace : isSpace c = false) (hfeed : c ≠ '\n') (hreturn : c ≠ '\r')
    (budget : ℕ) (d : Draft) (s : List Char) :
    readLines (budget + 1) d (c :: s) =
      (readLine d (c :: s)).bind fun parts => readLines budget parts.1 parts.2 := by
  rw [readLines, skipSpaces_cons hspace]
  simp only [afterNewline?_cons hfeed hreturn]
  rfl

/-- What a part begins with. -/
lemma Part.Bare.exists_print_eq_cons {p : Part} (h : p.Bare) :
    ∃ c t, p.print = c :: t ∧ (c = '\n' ∨ c = '[' ∨ isBare c = true) := by
  cases p with
  | blank => exact ⟨_, _, rfl, .inl rfl⟩
  | header name => exact ⟨_, _, rfl, .inr (.inl rfl)⟩
  | binding name field =>
    obtain ⟨c, t, ht, hc⟩ := IsBareName.exists_cons h
    refine ⟨c, t ++ [' ', '=', ' '] ++ field.print ++ ['\n'], ?_, .inr (.inr hc)⟩
    rw [Part.print, printBinding, ht]
    rfl

/-- **One step of the reader**: it takes a part off the front and adds it. -/
lemma readLines_print_append {p : Part} (h : p.Bare) (budget : ℕ) (d : Draft) (s : List Char) :
    readLines (budget + 1) d (p.print ++ s) =
      (d.addPart p).bind fun d => readLines budget d s := by
  cases p with
  | blank => rfl
  | header name =>
    have hread := readLine_header h d s
    rw [Part.print] at hread ⊢
    simp only [List.cons_append] at hread ⊢
    rw [readLines_cons (by decide) (by decide) (by decide), hread, Option.bind_map]
    rfl
  | binding name field =>
    have hread := readLine_binding h field d s
    obtain ⟨c, t, ht, hc⟩ := IsBareName.exists_cons h
    rw [Part.print, printBinding, ht] at hread ⊢
    simp only [List.cons_append] at hread ⊢
    rw [readLines_cons (isSpace_eq_false_of_isBare hc) (ne_of_isBare hc rfl)
      (ne_of_isBare hc rfl), hread, Option.bind_map]
    rfl

/-- A document is read part by part. -/
lemma readLines_flatMap (h : ∀ p ∈ parts, p.Bare) (hbudget : parts.length < budget) (d : Draft) :
    readLines budget d (parts.flatMap Part.print) = parts.foldlM Draft.addPart d := by
  induction parts generalizing budget d with
  | nil =>
    obtain ⟨budget, rfl⟩ := Nat.exists_eq_add_one.mpr hbudget
    rfl
  | cons p parts ih =>
    obtain ⟨budget, rfl⟩ := Nat.exists_eq_add_one.mpr (Nat.zero_lt_of_lt hbudget)
    obtain ⟨hp, hparts⟩ := List.forall_mem_cons.mp h
    rw [List.flatMap_cons, readLines_print_append hp, List.foldlM_cons]
    refine Option.bind_congr fun d' _ => ?_
    exact ih hparts (Nat.lt_of_succ_lt_succ hbudget) d'

/-- The document of parts. -/
def document (parts : List Part) : String := String.ofList (parts.flatMap Part.print)

/-- **A document is read as its parts put together.** -/
theorem read?_document (h : ∀ p ∈ parts, p.Bare) :
    read? (document parts) =
      (parts.foldlM Draft.addPart .empty).map fun d => .table .header d.root := by
  have hlength : parts.length ≤ (parts.flatMap Part.print).length := by
    refine length_le_length_flatMap ?_
    intro p hp
    obtain ⟨c, t, ht, -⟩ := (h p hp).exists_print_eq_cons
    simp [ht]
  have hmark : skipByteOrderMark (parts.flatMap Part.print) = parts.flatMap Part.print := by
    cases parts with
    | nil => rfl
    | cons p parts =>
      obtain ⟨c, t, ht, hc⟩ := (h p List.mem_cons_self).exists_print_eq_cons
      have hne : c ≠ '\ufeff' := by
        rintro rfl
        exact absurd hc (by decide)
      rw [List.flatMap_cons, ht, List.cons_append, skipByteOrderMark]
      intro r hr
      exact hne (List.cons.inj hr).1
  rw [read?, document, String.toList_ofList]
  simp only [hmark]
  rw [readLines_flatMap h (Nat.lt_succ_of_le hlength)]

end Part

/-! ### Assembling tables -/

/-- The values below a header. -/
def members (fields : List (String × Field)) : Members := fields.map fun f => (f.1, f.2.value)

/-- The tables of a document. -/
def tableMembers (tables : List (String × List (String × Field))) : Members :=
  tables.map fun t => (t.1, .table .header (members t.2))

/-- The parts of a table. -/
def Part.ofTable (t : String × List (String × Field)) : List Part :=
  .header t.1 :: t.2.map fun f => .binding f.1 f.2

section Assembly

variable {front below : Members} {name key : String} {v : Value}

/-- No value is found by a name that none has. -/
lemma lookup_eq_none (h : name ∉ front.map (·.1)) : front.lookup name = none := by
  rw [List.lookup_eq_none_iff]
  intro m hm
  rw [bne_iff_ne]
  rintro rfl
  exact h (List.mem_map_of_mem hm)

/-- A value at the end is found by its name, if it is the only one of that name. -/
lemma lookup_concat (h : name ∉ front.map (·.1)) :
    (front ++ [(name, v)]).lookup name = some v := by
  rw [List.lookup_append, lookup_eq_none h, Option.none_or, List.lookup_cons_self]

/-- A value at the end is replaced. -/
lemma replaceValue_concat (h : name ∉ front.map (·.1)) (w : Value) :
    replaceValue name w (front ++ [(name, v)]) = front ++ [(name, w)] := by
  induction front with
  | nil => exact if_pos rfl
  | cons m front ih =>
    rw [List.map_cons, List.mem_cons, not_or] at h
    rw [List.cons_append, replaceValue, if_neg (Ne.symm h.1), ih h.2, List.cons_append]

/-- A header begins a table, if no part before it has the name. -/
lemma addHeader_eq (d : Draft) (h : name ∉ d.root.map (·.1)) :
    d.addHeader [name] = some ⟨d.root ++ [(name, .table .header [])], [name]⟩ := by
  simp [Draft.addHeader, within, openTable, lookup_eq_none h]

/-- A value is put at the end of the table that the last header began. -/
lemma addValue_eq (hname : name ∉ front.map (·.1)) (hkey : key ∉ below.map (·.1)) (v : Value) :
    Draft.addValue ⟨front ++ [(name, .table .header below)], [name]⟩ [key] v =
      some ⟨front ++ [(name, .table .header (below ++ [(key, v)]))], [name]⟩ := by
  simp [Draft.addValue, within, put, putFrom, lookup_concat hname, lookup_eq_none hkey,
    replaceValue_concat hname]

/-- Where no name is used twice, none is used before. -/
lemma notMem_of_nodup {after : Members} {m : String × Value}
    (h : ((front ++ m :: after).map (·.1)).Nodup) : m.1 ∉ front.map (·.1) := by
  rw [List.map_append, List.map_cons] at h
  intro hm
  exact List.disjoint_of_nodup_append h hm List.mem_cons_self

/-- The values below a header are put into its table one after the other. -/
lemma foldlM_addPart_bindings {fields : List (String × Field)}
    (hname : name ∉ front.map (·.1)) (hnodup : (below ++ members fields).map (·.1) |>.Nodup) :
    (fields.map fun f => Part.binding f.1 f.2).foldlM Draft.addPart
        ⟨front ++ [(name, .table .header below)], [name]⟩ =
      some ⟨front ++ [(name, .table .header (below ++ members fields))], [name]⟩ := by
  induction fields generalizing below with
  | nil => simp [members]
  | cons f fields ih =>
    have hkey : f.1 ∉ below.map (·.1) := notMem_of_nodup (m := (f.1, f.2.value)) hnodup
    have hsplit : below ++ members (f :: fields) =
        (below ++ [(f.1, f.2.value)]) ++ members fields := by
      rw [List.append_assoc]
      rfl
    rw [hsplit] at hnodup ⊢
    rw [List.map_cons, List.foldlM_cons, Draft.addPart, addValue_eq hname hkey]
    exact ih hnodup

/-- A table is put at the end, if no part before it has its name. -/
lemma foldlM_addPart_ofTable {t : String × List (String × Field)} (d : Draft)
    (hname : t.1 ∉ d.root.map (·.1)) (hnodup : (t.2.map (·.1)).Nodup) :
    (Part.ofTable t).foldlM Draft.addPart d =
      some ⟨d.root ++ [(t.1, .table .header (members t.2))], [t.1]⟩ := by
  have hmembers : (([] : Members) ++ members t.2).map (·.1) = t.2.map (·.1) := by
    simp [members]
  rw [Part.ofTable, List.foldlM_cons, Draft.addPart, addHeader_eq d hname]
  exact foldlM_addPart_bindings hname (hmembers ▸ hnodup)

/-- Tables of different names are put at the end in their order. -/
lemma exists_foldlM_addPart_tables {tables : List (String × List (String × Field))} (d : Draft)
    (hnames : ((d.root ++ tableMembers tables).map (·.1)).Nodup)
    (hfields : ∀ t ∈ tables, (t.2.map (·.1)).Nodup) :
    ∃ d', (tables.flatMap Part.ofTable).foldlM Draft.addPart d = some d' ∧
      d'.root = d.root ++ tableMembers tables := by
  induction tables generalizing d with
  | nil => exact ⟨d, rfl, (List.append_nil _).symm⟩
  | cons t tables ih =>
    obtain ⟨ht, htables⟩ := List.forall_mem_cons.mp hfields
    have hname : t.1 ∉ d.root.map (·.1) :=
      notMem_of_nodup (m := (t.1, .table .header (members t.2))) hnames
    have hsplit : d.root ++ tableMembers (t :: tables) =
        (d.root ++ [(t.1, .table .header (members t.2))]) ++ tableMembers tables := by
      rw [List.append_assoc]
      rfl
    rw [hsplit] at hnames ⊢
    rw [List.flatMap_cons, List.foldlM_append, foldlM_addPart_ofTable d hname ht]
    exact ih _ hnames htables

/-- Blank lines add nothing. -/
lemma foldlM_addPart_filter (parts : List Part) (d : Draft) :
    (parts.filter (· ≠ .blank)).foldlM Draft.addPart d = parts.foldlM Draft.addPart d := by
  induction parts generalizing d with
  | nil => rfl
  | cons p parts ih =>
    by_cases hblank : p = .blank
    · subst hblank
      exact ih d
    · rw [List.filter_cons_of_pos (by simpa using hblank), List.foldlM_cons, List.foldlM_cons]
      exact Option.bind_congr fun d' _ => ih d'

end Assembly

/-! ### Documents of tables -/

/-- The parts are those of tables in their order, with blank lines anywhere. -/
def LaysOut (tables : List (String × List (String × Field))) (parts : List Part) : Prop :=
  parts.filter (· ≠ .blank) = tables.flatMap Part.ofTable

/-- No two names are the same, and all of them are written without quotes. -/
structure PlainNames (names : List String) : Prop where
  nodup : names.Nodup
  bare : ∀ name ∈ names, IsBareName name

/-- The names of tables are plain, and so are those of the fields of each. -/
structure PlainlyNamed (tables : List (String × List (String × Field))) : Prop where
  names : PlainNames (tables.map (·.1))
  fields : ∀ t ∈ tables, PlainNames (t.2.map (·.1))

section Document

variable {tables : List (String × List (String × Field))} {parts : List Part}

/-- The names in the parts of tables are written without quotes. -/
lemma LaysOut.bare (h : LaysOut tables parts) (hnames : PlainlyNamed tables) :
    ∀ p ∈ parts, p.Bare := by
  intro p hp
  by_cases hblank : p = .blank
  · subst hblank
    trivial
  · have hmem : p ∈ tables.flatMap Part.ofTable := by
      rw [← h]
      exact List.mem_filter.mpr ⟨hp, by simpa using hblank⟩
    obtain ⟨t, ht, hpart⟩ := List.mem_flatMap.mp hmem
    rcases List.mem_cons.mp hpart with rfl | hfield
    · exact hnames.names.bare t.1 (List.mem_map_of_mem ht)
    · obtain ⟨f, hf, rfl⟩ := List.mem_map.mp hfield
      exact (hnames.fields t ht).bare f.1 (List.mem_map_of_mem hf)

/-- **A document is read as its tables**, wherever blank lines stand in it. -/
theorem read?_of_laysOut (h : LaysOut tables parts) (hnames : PlainlyNamed tables) :
    read? (document parts) = some (.table .header (tableMembers tables)) := by
  have hnodup : (((Draft.empty.root) ++ tableMembers tables).map (·.1)).Nodup := by
    have hmap : (tableMembers tables).map (·.1) = tables.map (·.1) := by
      rw [tableMembers, List.map_map]
      rfl
    rw [Draft.empty, List.nil_append, hmap]
    exact hnames.names.nodup
  have hfields : ∀ t ∈ tables, (t.2.map (·.1)).Nodup := fun t ht => (hnames.fields t ht).nodup
  obtain ⟨d, hd, hroot⟩ := exists_foldlM_addPart_tables .empty hnodup hfields
  rw [read?_document (h.bare hnames), ← foldlM_addPart_filter, h, hd, Option.map_some, hroot]
  rfl

/-- No part of a table is a blank line. -/
lemma filter_ofTable (t : String × List (String × Field)) :
    (Part.ofTable t).filter (· ≠ .blank) = Part.ofTable t := by
  rw [List.filter_eq_self]
  intro p hp
  rw [decide_eq_true_eq]
  rintro rfl
  simp [Part.ofTable] at hp

/-- A table is printed part by part. -/
lemma printTable_eq (t : String × List (String × Field)) :
    printTable t.1 t.2 = (Part.ofTable t).flatMap Part.print := by
  rw [printTable, Part.ofTable, List.flatMap_cons, List.flatMap_map]
  rfl

/-- Tables are printed as a document of theirs. -/
lemma exists_laysOut_printTables (tables : List (String × List (String × Field))) :
    ∃ parts, LaysOut tables parts ∧ printTables tables = parts.flatMap Part.print := by
  induction tables with
  | nil => exact ⟨[], rfl, rfl⟩
  | cons t tables ih =>
    obtain ⟨parts, hlays, hprint⟩ := ih
    cases tables with
    | nil =>
      refine ⟨Part.ofTable t, ?_, printTable_eq t⟩
      rw [LaysOut, filter_ofTable, List.flatMap_singleton]
    | cons t' tables =>
      refine ⟨Part.ofTable t ++ .blank :: parts, ?_, ?_⟩
      · rw [LaysOut, List.filter_append, filter_ofTable, List.flatMap_cons, ← hlays]
        rfl
      · rw [printTables, hprint, printTable_eq, List.flatMap_append, List.flatMap_cons]
        · rfl
        · exact List.cons_ne_nil _ _

end Document

end SectionLedger.Toml
