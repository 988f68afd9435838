import Mathlib
import SectionLedger.Line.Category
import SectionLedger.Proofs.Segmentation.Comment
import SectionLedger.Proofs.Text.Pattern
import SectionLedger.Proofs.Text.Run

/-!
# Lines read without going back

The patterns of the line table leave open how far a run of blanks or of word characters goes, and
which of several words is taken, and a match may have to take less of the text than it could.
`Line.reading` reads a text from left to right instead: every run is taken as far as it goes, and
nothing is tried twice.  It is the same classification (`categoryOf_eq_reading`), because no
character is both blank and part of a word, so that a run can only end where the next part begins.

The one place where a pattern has to give back a character is a declaration: what follows the name
is one character other than an opening bracket, and that may be the last character of the name.  So
a name of one character with nothing behind it is no declaration, and any longer name is.
-/

namespace SectionLedger

open Text Text.Pattern

namespace Line

/-! ### The reading -/

/-- The words of preprocessor lines that stand on their own. -/
def directiveWords : List String :=
  ["define", "include", "pragma", "error", "warning", "undef", "line"]

/-- The words that begin a block of inline assembly. -/
def asmWords : List String := ["asm", "__asm__"]

/-- The words that may stand between the word of a block and its bracket. -/
def volatileWords : List String := ["volatile", "__volatile__"]

/-- Whether a text is a comment: it begins with the opening mark, and what is behind ends with the
closing mark and has no line feed. -/
def readsComment (text : List Char) : Bool :=
  "/*".toList.isPrefixOf text && "*/".toList.isSuffixOf (text.drop 2) &&
    !(text.drop 2).contains '\n'

/-- The name behind a type and white space, and what follows it.  Both the white space and the name
are taken as far as they go. -/
def named? (type : String) (text : List Char) : Option (List Char × List Char) :=
  let behind := text.drop type.toList.length
  let named := behind.dropWhile isBlank
  if type.toList.isPrefixOf text && behind.head?.any isBlank && named.head?.any isWord then
    some (named.takeWhile isWord, named.dropWhile isWord)
  else none

/-- Whether an opening bracket follows a type and a name. -/
def readsSignature (text : List Char) : Bool :=
  primitiveTypes.any fun type => (named? type text).any fun parts =>
    (parts.2.dropWhile isBlank).head? == some '('

/-- Whether anything but an opening bracket follows a type and the first character of a name. -/
def readsDeclaration (text : List Char) : Bool :=
  primitiveTypes.any fun type => (named? type text).any fun parts =>
    decide (2 ≤ parts.1.length) || parts.2.head?.any (· != '(')

/-- What follows the word that a text begins with and the white space behind it. -/
def behindWord? (words : List String) (text : List Char) : Option (List Char) :=
  (words.find? fun w => w.toList.isPrefixOf text).map fun w =>
    (text.drop w.toList.length).dropWhile isBlank

/-- Whether a text opens a block of inline assembly with a bracket. -/
def readsAsm (bracket : Char) (text : List Char) : Bool :=
  (behindWord? asmWords text).any fun rest =>
    ((behindWord? volatileWords rest).getD rest).head? == some bracket

/-- Whether a text ends a block of inline assembly that has no bracket. -/
def readsAsmEnd (text : List Char) : Bool :=
  (behindWord? ["__endasm"] text).any fun rest => rest.head? == some ';'

/-- The categories in the order in which they are tried, each with its test. -/
def readTable : List (Category × (List Char → Bool)) :=
  [(.ifOpen, "#if".toList.isPrefixOf),
   (.ifClose, "#endif".toList.isPrefixOf),
   (.directive, fun text => directiveWords.any fun w => ('#' :: w.toList).isPrefixOf text),
   (.lineComment, "//".toList.isPrefixOf),
   (.inlineBlockComment, readsComment),
   (.blockCommentOpen, "/*".toList.isPrefixOf),
   (.blockCommentClose, "*/".toList.isSuffixOf),
   (.procedureSignature, readsSignature),
   (.variableDecl, readsDeclaration),
   (.asmBraceOpen, readsAsm '{'),
   (.asmParenOpen, readsAsm '('),
   (.asmFloorOpen, "__asm".toList.isPrefixOf),
   (.asmFloorClose, readsAsmEnd)]

/-- The category of a trimmed text that is read from left to right: that of the first test that it
passes. -/
def reading (text : List Char) : Option Category :=
  (readTable.find? fun row => row.2 text).map (·.1)

/-! ### What a reading finds -/

/-- A text begins with a primitive type, white space and a name, and the name ends where it is no
longer followed by a character of a word. -/
def BeginsNamed (text name behind : List Char) : Prop :=
  ∃ type ∈ primitiveTypes, ∃ gap, text = type.toList ++ gap ++ name ++ behind ∧
    (gap ≠ [] ∧ ∀ c ∈ gap, isBlank c = true) ∧ (name ≠ [] ∧ ∀ c ∈ name, isWord c = true) ∧
      ∀ c ∈ behind.head?, isWord c = false

/-- A text begins with a type, a name and, behind white space or none, an opening bracket. -/
def IsSignature (text : List Char) : Prop :=
  ∃ name behind, BeginsNamed text name behind ∧
    ∃ gap rest, behind = gap ++ '(' :: rest ∧ ∀ c ∈ gap, isBlank c = true

/-- A text is a type and a name with something behind it, or with a second character. -/
def IsDeclaration (text : List Char) : Prop :=
  ∃ name behind, BeginsNamed text name behind ∧ (2 ≤ name.length ∨ behind ≠ [])

/-- A text begins with a word for inline assembly and a bracket, with white space or none between
them and, it may be, a volatile mark that may have white space behind it. -/
def IsAsm (bracket : Char) (text : List Char) : Prop :=
  ∃ w ∈ asmWords, ∃ gap mark rest, text = w.toList ++ gap ++ mark ++ bracket :: rest ∧
    (∀ c ∈ gap, isBlank c = true) ∧
      (mark = [] ∨ ∃ v ∈ volatileWords, ∃ gap', mark = v.toList ++ gap' ∧
        ∀ c ∈ gap', isBlank c = true)

/-- A text begins with the word that opens a block of assembly without a bracket. -/
def IsAsmFloor (text : List Char) : Prop := "__asm".toList <+: text

/-- A text begins with the word that ends a block of assembly and, behind white space or none, a
semicolon. -/
def IsAsmEnd (text : List Char) : Prop :=
  ∃ gap rest, text = "__endasm".toList ++ gap ++ ';' :: rest ∧ ∀ c ∈ gap, isBlank c = true

section Tests

variable {text name behind r : List Char}

/-- The parts behind a type are the name and what follows it. -/
lemma named?_eq_some_iff {type : String} : named? type text = some (name, behind) ↔
    ∃ gap, text = type.toList ++ gap ++ name ++ behind ∧
      (gap ≠ [] ∧ ∀ c ∈ gap, isBlank c = true) ∧ (name ≠ [] ∧ ∀ c ∈ name, isWord c = true) ∧
        ∀ c ∈ behind.head?, isWord c = false := by
  constructor
  · intro h
    unfold named? at h
    simp only [Option.ite_none_right_eq_some, Bool.and_eq_true, Option.some.injEq, Prod.mk.injEq,
      List.isPrefixOf_iff_prefix] at h
    obtain ⟨⟨⟨⟨later, rfl⟩, hblank⟩, hword⟩, rfl, rfl⟩ := h
    rw [List.drop_left] at hblank hword ⊢
    refine ⟨later.takeWhile isBlank, ?_, ⟨?_, fun c => List.mem_takeWhile_imp⟩,
      ⟨?_, fun c => List.mem_takeWhile_imp⟩, head?_dropWhile_eq_false isWord _⟩
    · rw [List.append_assoc, List.takeWhile_append_dropWhile, List.append_assoc,
        List.takeWhile_append_dropWhile]
    · intro hnil
      cases later with
      | nil => contradiction
      | cons c later =>
        have hc : isBlank c = true := hblank
        rw [List.takeWhile_cons, if_pos hc] at hnil
        contradiction
    · intro hnil
      generalize later.dropWhile isBlank = named at hnil hword
      cases named with
      | nil => contradiction
      | cons c named =>
        have hc : isWord c = true := hword
        rw [List.takeWhile_cons, if_pos hc] at hnil
        contradiction
  · rintro ⟨gap, rfl, ⟨hgapne, hgap⟩, ⟨hnamene, hname⟩, hbehind⟩
    have hblanks : ∀ c ∈ (name ++ behind).head?, isBlank c = false := by
      intro c hc
      rw [List.head?_append_of_ne_nil _ hnamene] at hc
      by_contra hblank
      rw [Bool.not_eq_false] at hblank
      have hword := isWord_eq_false_of_isBlank hblank
      rw [hname c (List.mem_of_head? hc)] at hword
      contradiction
    have hnamed : ((gap ++ (name ++ behind)).dropWhile isBlank) = name ++ behind :=
      dropWhile_run hgap hblanks
    obtain ⟨b, gap, rfl⟩ := List.exists_cons_of_ne_nil hgapne
    obtain ⟨c, name, rfl⟩ := List.exists_cons_of_ne_nil hnamene
    have hbegins : type.toList.isPrefixOf (type.toList ++ (b :: gap ++ (c :: name ++ behind))) =
        true := List.isPrefixOf_iff_prefix.mpr (List.prefix_append _ _)
    have hb : ((b :: gap ++ (c :: name ++ behind)).head?.any isBlank) = true :=
      hgap b List.mem_cons_self
    have hc : ((c :: name ++ behind).head?.any isWord) = true := hname c List.mem_cons_self
    rw [List.append_assoc, List.append_assoc, named?, List.drop_left]
    simp only [hbegins, hb, hnamed, hc, Bool.and_self, if_true]
    rw [takeWhile_run hname hbehind, dropWhile_run hname hbehind]

/-- Some type has parts that pass a test exactly if a name is found that passes it. -/
lemma any_named?_iff (test : List Char × List Char → Bool) :
    (primitiveTypes.any fun type => (named? type text).any test) = true ↔
      ∃ name behind, BeginsNamed text name behind ∧ test (name, behind) = true := by
  rw [List.any_eq_true]
  constructor
  · rintro ⟨type, htype, hany⟩
    obtain ⟨⟨name, behind⟩, hparts, htest⟩ := (Option.any_eq_true _ _).mp hany
    exact ⟨name, behind, ⟨type, htype, named?_eq_some_iff.mp hparts⟩, htest⟩
  · rintro ⟨name, behind, ⟨type, htype, hbegins⟩, htest⟩
    refine ⟨type, htype, ?_⟩
    rw [named?_eq_some_iff.mpr hbegins]
    exact htest

/-- The test of signatures finds the signatures. -/
lemma readsSignature_iff : readsSignature text = true ↔ IsSignature text := by
  have hbracket : isBlank '(' = false := by decide
  rw [readsSignature, any_named?_iff]
  simp only [beq_iff_eq, head?_dropWhile_eq_some_iff hbracket]
  rfl

/-- The test of declarations finds the names that are longer than one character or have something
other than an opening bracket behind them. -/
lemma readsDeclaration_iff : readsDeclaration text = true ↔
    ∃ name behind, BeginsNamed text name behind ∧
      (2 ≤ name.length ∨ ∃ c ∈ behind.head?, c ≠ '(') := by
  rw [readsDeclaration, any_named?_iff]
  simp only [Bool.or_eq_true, decide_eq_true_eq, Option.any_eq_true, bne_iff_ne, ne_eq,
    Option.mem_def]

/-- Of words of which none begins another one, a text begins with one at most, and what is behind it
and its white space does not begin with a blank. -/
lemma behindWord?_eq_some_iff {words : List String}
    (hfree : ∀ v ∈ words, ∀ w ∈ words, v.toList <+: w.toList → v = w) :
    behindWord? words text = some r ↔
      ∃ w ∈ words, ∃ gap, text = w.toList ++ gap ++ r ∧ (∀ c ∈ gap, isBlank c = true) ∧
        ∀ c ∈ r.head?, isBlank c = false := by
  have hfound : ∀ {w}, (words.find? fun w => w.toList.isPrefixOf text) = some w →
      w ∈ words ∧ w.toList <+: text := fun h =>
    ⟨List.mem_of_find?_eq_some h, List.isPrefixOf_iff_prefix.mp (by simpa using List.find?_some h)⟩
  rw [behindWord?, Option.map_eq_some_iff]
  constructor
  · rintro ⟨w, hw, rfl⟩
    obtain ⟨hmem, later, rfl⟩ := hfound hw
    rw [List.drop_left]
    refine ⟨w, hmem, later.takeWhile isBlank, ?_, fun c => List.mem_takeWhile_imp,
      head?_dropWhile_eq_false isBlank later⟩
    rw [List.append_assoc, List.takeWhile_append_dropWhile]
  · rintro ⟨w, hw, gap, htext, hgap, hr⟩
    rw [List.append_assoc] at htext
    have hprefix : w.toList <+: text := ⟨gap ++ r, htext.symm⟩
    obtain ⟨v, hv⟩ : ∃ v, (words.find? fun w => w.toList.isPrefixOf text) = some v := by
      rw [← Option.isSome_iff_exists, List.find?_isSome]
      exact ⟨w, hw, List.isPrefixOf_iff_prefix.mpr hprefix⟩
    obtain ⟨hmem, hprefix'⟩ := hfound hv
    obtain rfl : v = w := by
      rcases List.prefix_or_prefix_of_prefix hprefix' hprefix with h | h
      · exact hfree v hmem w hw h
      · exact (hfree w hw v hmem h).symm
    refine ⟨v, hv, ?_⟩
    rw [htext, List.drop_left, dropWhile_run hgap hr]

/-- A volatile mark begins with neither a blank nor an opening bracket. -/
lemma head?_volatile {v : String} (hv : v ∈ volatileWords) (s : List Char) :
    ∃ c rest, v.toList ++ s = c :: rest ∧ isBlank c = false ∧ c ≠ '{' ∧ c ≠ '(' := by
  rcases List.mem_pair.mp hv with rfl | rfl
  · exact ⟨'v', _, rfl, by decide, by decide, by decide⟩
  · exact ⟨'_', _, rfl, by decide, by decide, by decide⟩

/-- The test of assembly finds the blocks that open with the bracket. -/
lemma readsAsm_iff {bracket : Char} (h : bracket = '{' ∨ bracket = '(') :
    readsAsm bracket text = true ↔ IsAsm bracket text := by
  have hasm : ∀ v ∈ asmWords, ∀ w ∈ asmWords, v.toList <+: w.toList → v = w := by decide
  have hvolatile : ∀ v ∈ volatileWords, ∀ w ∈ volatileWords, v.toList <+: w.toList → v = w := by
    decide
  have hblank : isBlank bracket = false := by
    rcases h with rfl | rfl <;> decide
  have hnone : ∀ rest, behindWord? volatileWords (bracket :: rest) = none := by
    intro rest
    rw [Option.eq_none_iff_forall_ne_some]
    intro r hr
    obtain ⟨v, hv, gap, htext, -⟩ := (behindWord?_eq_some_iff hvolatile).mp hr
    obtain ⟨c, more, hhead, -, hbrace, hparen⟩ := head?_volatile hv (gap ++ r)
    rw [List.append_assoc, hhead] at htext
    rcases h with rfl | rfl
    · exact hbrace (List.cons.inj htext).1.symm
    · exact hparen (List.cons.inj htext).1.symm
  rw [readsAsm, Option.any_eq_true]
  simp only [behindWord?_eq_some_iff hasm, beq_iff_eq]
  constructor
  · rintro ⟨r, ⟨w, hw, gap, rfl, hgap, -⟩, hr⟩
    cases hmark : behindWord? volatileWords r with
    | none =>
      rw [hmark, Option.getD_none] at hr
      obtain ⟨rest, rfl⟩ := List.head?_eq_some_iff.mp hr
      exact ⟨w, hw, gap, [], rest, by rw [List.append_nil], hgap, .inl rfl⟩
    | some r' =>
      rw [hmark, Option.getD_some] at hr
      obtain ⟨rest, rfl⟩ := List.head?_eq_some_iff.mp hr
      obtain ⟨v, hv, gap', rfl, hgap', -⟩ := (behindWord?_eq_some_iff hvolatile).mp hmark
      refine ⟨w, hw, gap, v.toList ++ gap', rest, ?_, hgap, .inr ⟨v, hv, gap', rfl, hgap'⟩⟩
      simp only [List.append_assoc]
  · rintro ⟨w, hw, gap, mark, rest, rfl, hgap, rfl | ⟨v, hv, gap', rfl, hgap'⟩⟩
    · refine ⟨bracket :: rest, ⟨w, hw, gap, by rw [List.append_nil], hgap, ?_⟩, ?_⟩
      · intro c hc
        obtain rfl := Option.some.inj hc
        exact hblank
      · rw [hnone rest]
        rfl
    · have hmark : behindWord? volatileWords (v.toList ++ gap' ++ bracket :: rest) =
          some (bracket :: rest) := by
        refine (behindWord?_eq_some_iff hvolatile).mpr ⟨v, hv, gap', rfl, hgap', ?_⟩
        intro c hc
        obtain rfl := Option.some.inj hc
        exact hblank
      refine ⟨v.toList ++ gap' ++ bracket :: rest, ⟨w, hw, gap, by simp, hgap, ?_⟩, ?_⟩
      · obtain ⟨d, more, hhead, hd, -⟩ := head?_volatile hv (gap' ++ bracket :: rest)
        rw [List.append_assoc, hhead]
        intro c hc
        obtain rfl := Option.some.inj hc
        exact hd
      · rw [hmark]
        rfl

/-- The test of the end of assembly finds the ends. -/
lemma readsAsmEnd_iff : readsAsmEnd text = true ↔ IsAsmEnd text := by
  have hend : ∀ v ∈ ["__endasm"], ∀ w ∈ ["__endasm"], v.toList <+: w.toList → v = w := by decide
  rw [readsAsmEnd, Option.any_eq_true]
  simp only [behindWord?_eq_some_iff hend, beq_iff_eq]
  constructor
  · rintro ⟨r, ⟨w, hw, gap, rfl, hgap, -⟩, hr⟩
    obtain rfl := List.mem_singleton.mp hw
    obtain ⟨rest, rfl⟩ := List.head?_eq_some_iff.mp hr
    exact ⟨gap, rest, rfl, hgap⟩
  · rintro ⟨gap, rest, rfl, hgap⟩
    refine ⟨';' :: rest, ⟨_, List.mem_singleton_self _, gap, rfl, hgap, ?_⟩, rfl⟩
    rintro c ⟨⟩
    decide

end Tests

/-! ### The rows of the line table -/

section Rows

variable {text r : List Char}

/-- A row of one word matches the texts that begin with the word. -/
lemma matchesFront_word_iff {w : String} :
    (word w).matchesFront text = true ↔ w.toList <+: text := by
  simp only [matchesFront_iff, word, mem_rests_literal]
  rfl

/-- The row of conditional blocks matches the texts that begin with its shortest word. -/
lemma matchesFront_ifPattern_iff : ifPattern.matchesFront text = true ↔ "#if".toList <+: text := by
  have hwords : ifPattern = .seq (word "#")
      (oneOf (["if", "ifdef", "if defined", "ifndef", "if !defined"].map word)) := rfl
  rw [hwords, matchesFront_iff]
  simp only [mem_rests_seq, word, mem_rests_literal, mem_rests_oneOf_word]
  constructor
  · rintro ⟨r, _, rfl, w, hw, rfl⟩
    simp only [List.mem_cons, List.not_mem_nil, or_false] at hw
    rcases hw with rfl | rfl | rfl | rfl | rfl <;> exact ⟨_, rfl⟩
  · rintro ⟨r, rfl⟩
    exact ⟨r, 'i' :: 'f' :: r, rfl, "if", List.mem_cons_self, rfl⟩

/-- The row of preprocessor lines matches the texts that begin with one of the words. -/
lemma matchesFront_directivePattern_iff : directivePattern.matchesFront text = true ↔
    ∃ w ∈ directiveWords, '#' :: w.toList <+: text := by
  have hwords : directivePattern = .seq (word "#") (oneOf (directiveWords.map word)) := rfl
  rw [hwords, matchesFront_iff]
  simp only [mem_rests_seq, word, mem_rests_literal, mem_rests_oneOf_word]
  constructor
  · rintro ⟨r, _, rfl, w, hw, rfl⟩
    exact ⟨w, hw, r, rfl⟩
  · rintro ⟨w, hw, r, rfl⟩
    exact ⟨r, w.toList ++ r, rfl, w, hw, rfl⟩

/-- The test of comments of one line finds the texts that are one comment. -/
lemma readsComment_iff : readsComment text = true ↔ IsOneComment text := by
  simp only [readsComment, Bool.and_eq_true, List.isPrefixOf_iff_prefix,
    List.isSuffixOf_iff_suffix, Bool.not_eq_true', List.contains_eq_mem, decide_eq_false_iff_not]
  constructor
  · rintro ⟨⟨⟨behind, rfl⟩, ⟨body, hbody⟩⟩, hnewline⟩
    obtain rfl : body ++ ['*', '/'] = behind := hbody
    refine ⟨body, fun h => hnewline ?_, rfl⟩
    exact List.mem_append_left ['*', '/'] h
  · rintro ⟨body, hbody, rfl⟩
    refine ⟨⟨⟨body ++ ['*', '/'], rfl⟩, ⟨body, rfl⟩⟩, ?_⟩
    intro hmem
    rcases List.mem_append.mp hmem with h | h
    · exact hbody h
    · exact absurd h (by decide)

/-- The row of the ends of comments matches the texts that end with the closing mark. -/
lemma matchesFront_closing_iff :
    (inOrder [.many fun _ => true, word "*/", .finish]).matchesFront text = true ↔
      "*/".toList <:+ text := by
  simp only [matchesFront_iff, inOrder, word, mem_rests_seq, mem_rests_literal, mem_rests_many,
    mem_rests_finish]
  constructor
  · rintro ⟨_, _, ⟨run, rfl, -⟩, _, rfl, rfl, rfl⟩
    exact ⟨run, by rw [List.append_nil]⟩
  · rintro ⟨run, rfl⟩
    exact ⟨[], "*/".toList, ⟨run, rfl, fun _ _ => trivial⟩, [], List.append_nil _, rfl, rfl⟩

/-- A type, white space and a name leave what follows some characters of the name. -/
lemma mem_rests_typedName : r ∈ typedName.rests text ↔
    ∃ type ∈ primitiveTypes, ∃ gap name, text = type.toList ++ gap ++ name ++ r ∧
      (gap ≠ [] ∧ ∀ c ∈ gap, isBlank c = true) ∧ name ≠ [] ∧ ∀ c ∈ name, isWord c = true := by
  simp only [typedName, inOrder, mem_rests_seq, mem_rests_oneOf_word, mem_rests_oneOrMore]
  constructor
  · rintro ⟨_, ⟨type, htype, rfl⟩, _, ⟨gap, hgapne, rfl, hgap⟩, name, hnamene, rfl, hname⟩
    exact ⟨type, htype, gap, name, by simp, ⟨hgapne, hgap⟩, hnamene, hname⟩
  · rintro ⟨type, htype, gap, name, rfl, ⟨hgapne, hgap⟩, hnamene, hname⟩
    exact ⟨gap ++ (name ++ r), ⟨type, htype, by simp⟩, name ++ r, ⟨gap, hgapne, rfl, hgap⟩,
      name, hnamene, rfl, hname⟩

/-- The row of signatures matches the signatures: white space or a bracket ends the name. -/
lemma matchesFront_signature_iff :
    (inOrder [typedName, .many isBlank, word "("]).matchesFront text = true ↔
      IsSignature text := by
  have hbracket : "(".toList = ['('] := rfl
  simp only [matchesFront_iff, inOrder, word, mem_rests_seq, mem_rests_typedName, mem_rests_many,
    mem_rests_literal, hbracket]
  constructor
  · rintro ⟨rest, _, ⟨type, htype, gap, name, rfl, hgap, hname⟩, _, ⟨gap', rfl, hgap'⟩, rfl⟩
    refine ⟨name, gap' ++ '(' :: rest, ⟨type, htype, gap, rfl, hgap, hname, ?_⟩, gap', rest, rfl,
      hgap'⟩
    intro c hc
    cases gap' with
    | nil =>
      obtain rfl := Option.some.inj hc
      exact isWord_bracket
    | cons d gap' =>
      obtain rfl := Option.some.inj hc
      exact isWord_eq_false_of_isBlank (hgap' d List.mem_cons_self)
  · rintro ⟨name, _, ⟨type, htype, gap, rfl, hgap, hname, -⟩, gap', rest, rfl, hgap'⟩
    exact ⟨rest, gap' ++ '(' :: rest, ⟨type, htype, gap, name, rfl, hgap, hname⟩, '(' :: rest,
      ⟨gap', rfl, hgap'⟩, rfl⟩

/-- The row of declarations matches what the test of declarations finds.  If the name is taken as
far as it goes, the character that is no opening bracket is behind it or is its last one. -/
lemma matchesFront_declaration_iff :
    (inOrder [typedName, .many isBlank, .either (word "=") (.one (· != '('))]).matchesFront text =
      true ↔ readsDeclaration text = true := by
  have hequals : "=".toList = ['='] := rfl
  rw [readsDeclaration_iff]
  simp only [matchesFront_iff, inOrder, word, mem_rests_seq, mem_rests_typedName, mem_rests_many,
    mem_rests_either, mem_rests_one, mem_rests_literal, hequals, bne_iff_ne]
  constructor
  · rintro ⟨rest, t, ⟨type, htype, gap, name, rfl, hgap, hnamene, hname⟩, u, ⟨run, rfl, hrun⟩, hu⟩
    obtain ⟨c, hc, rfl⟩ : ∃ c, c ≠ '(' ∧ u = c :: rest := by
      rcases hu with rfl | ⟨c, hc, rfl⟩
      · exact ⟨'=', by decide, rfl⟩
      · exact ⟨c, hc, rfl⟩
    have hhead : ∀ d ∈ (run ++ c :: rest).head?, d ≠ '(' := by
      intro d hd
      cases run with
      | nil => exact Option.some.inj hd ▸ hc
      | cons b run =>
        obtain rfl := Option.some.inj hd
        rintro rfl
        exact Bool.false_ne_true (hrun '(' List.mem_cons_self)
    have hne : run ++ c :: rest ≠ [] := by simp
    generalize run ++ c :: rest = t at hhead hne
    refine ⟨name ++ t.takeWhile isWord, t.dropWhile isWord, ⟨type, htype, gap, ?_, hgap, ⟨?_, ?_⟩,
      head?_dropWhile_eq_false isWord t⟩, ?_⟩
    · rw [← List.append_assoc, List.append_assoc _ (t.takeWhile isWord),
        List.takeWhile_append_dropWhile]
    · exact List.append_ne_nil_of_left_ne_nil hnamene _
    · intro d hd
      rcases List.mem_append.mp hd with hd | hd
      · exact hname d hd
      · exact List.mem_takeWhile_imp hd
    · have hparts := List.takeWhile_append_dropWhile (p := isWord) (l := t)
      cases hmore : t.takeWhile isWord with
      | nil =>
        rw [hmore, List.nil_append] at hparts
        obtain ⟨d, behind, rfl⟩ := List.exists_cons_of_ne_nil hne
        rw [hparts]
        exact .inr ⟨d, rfl, hhead d rfl⟩
      | cons d more =>
        have hpos := List.length_pos_iff.mpr hnamene
        rw [List.length_append, List.length_cons]
        omega
  · rintro ⟨name, behind, ⟨type, htype, gap, rfl, hgap, ⟨hnamene, hname⟩, -⟩, hlong | ⟨c, hc, hne⟩⟩
    · -- the last character of the name is given back
      obtain ⟨front, c, rfl⟩ := (List.eq_nil_or_concat' name).resolve_left hnamene
      rw [List.length_append, List.length_singleton] at hlong
      have hfront : front ≠ [] := List.length_pos_iff.mp (by omega)
      have hc : c ≠ '(' := by
        rintro rfl
        exact Bool.false_ne_true (isWord_bracket.symm.trans (hname '(' (by simp)))
      refine ⟨behind, c :: behind, ⟨type, htype, gap, front, by simp, hgap, hfront, ?_⟩,
        c :: behind, ⟨[], rfl, by simp⟩, .inr ⟨c, hc, rfl⟩⟩
      exact fun d hd => hname d (List.mem_append_left _ hd)
    · obtain ⟨rest, rfl⟩ := List.head?_eq_some_iff.mp hc
      exact ⟨rest, c :: rest, ⟨type, htype, gap, name, rfl, hgap, hnamene, hname⟩, c :: rest,
        ⟨[], rfl, by simp⟩, .inr ⟨c, hne, rfl⟩⟩

/-- The row of assembly with a bracket matches the blocks that open with it. -/
lemma matchesFront_asmPattern_iff {bracket : Char} :
    (asmPattern bracket).matchesFront text = true ↔ IsAsm bracket text := by
  have hwords : asmPattern bracket = inOrder [oneOf (asmWords.map word), .many isBlank,
      .either (inOrder [oneOf (volatileWords.map word), .many isBlank]) (.literal []),
      .literal [bracket]] := rfl
  rw [hwords, matchesFront_iff]
  simp only [inOrder, mem_rests_seq, mem_rests_oneOf_word, mem_rests_many, mem_rests_either,
    mem_rests_literal]
  constructor
  · rintro ⟨rest, _, ⟨w, hw, rfl⟩, _, ⟨gap, rfl, hgap⟩, _,
      ⟨_, ⟨v, hv, rfl⟩, gap', rfl, hgap'⟩ | rfl, rfl⟩
    · exact ⟨w, hw, gap, v.toList ++ gap', rest, by simp, hgap, .inr ⟨v, hv, gap', rfl, hgap'⟩⟩
    · exact ⟨w, hw, gap, [], rest, by simp, hgap, .inl rfl⟩
  · rintro ⟨w, hw, gap, mark, rest, rfl, hgap, rfl | ⟨v, hv, gap', rfl, hgap'⟩⟩
    · exact ⟨rest, gap ++ bracket :: rest, ⟨w, hw, by simp⟩, bracket :: rest, ⟨gap, rfl, hgap⟩,
        bracket :: rest, .inr rfl, rfl⟩
    · exact ⟨rest, gap ++ (v.toList ++ (gap' ++ bracket :: rest)), ⟨w, hw, by simp⟩,
        v.toList ++ (gap' ++ bracket :: rest), ⟨gap, rfl, hgap⟩, bracket :: rest,
        .inl ⟨gap' ++ bracket :: rest, ⟨v, hv, rfl⟩, gap', rfl, hgap'⟩, rfl⟩

/-- The row of the ends of assembly matches the ends. -/
lemma matchesFront_asmEnd_iff :
    (inOrder [word "__endasm", .many isBlank, word ";"]).matchesFront text = true ↔
      IsAsmEnd text := by
  have hsemicolon : ";".toList = [';'] := rfl
  simp only [matchesFront_iff, inOrder, word, mem_rests_seq, mem_rests_literal, mem_rests_many,
    hsemicolon]
  constructor
  · rintro ⟨rest, _, rfl, _, ⟨gap, rfl, hgap⟩, rfl⟩
    exact ⟨gap, rest, by rw [List.append_assoc]; rfl, hgap⟩
  · rintro ⟨gap, rest, rfl, hgap⟩
    exact ⟨rest, gap ++ ';' :: rest, by rw [List.append_assoc], ';' :: rest, ⟨gap, rfl, hgap⟩, rfl⟩

/-- A pattern and a test that find the same texts are the same function. -/
lemma matchesFront_eq {p : Pattern} {test : List Char → Bool}
    (h : ∀ text, p.matchesFront text = true ↔ test text = true) : p.matchesFront = test :=
  funext fun text => Bool.eq_iff_iff.mpr (h text)

/-- Each row of the line table matches what its test finds. -/
theorem map_matchesFront_lineTable :
    lineTable.map (fun row => (row.1, row.2.matchesFront)) = readTable := by
  have hword : ∀ w : String, (word w).matchesFront = w.toList.isPrefixOf := fun w =>
    matchesFront_eq fun _ => matchesFront_word_iff.trans List.isPrefixOf_iff_prefix.symm
  have hif : ifPattern.matchesFront = "#if".toList.isPrefixOf :=
    matchesFront_eq fun _ => matchesFront_ifPattern_iff.trans List.isPrefixOf_iff_prefix.symm
  have hdirective : directivePattern.matchesFront = fun text =>
      directiveWords.any fun w => ('#' :: w.toList).isPrefixOf text := by
    refine matchesFront_eq fun text => ?_
    rw [matchesFront_directivePattern_iff, List.any_eq_true]
    simp only [List.isPrefixOf_iff_prefix]
  have hinline : (inOrder [word "/*", .many notLineFeed, word "*/", .finish]).matchesFront =
      readsComment :=
    matchesFront_eq fun _ => matchesFront_inlineComment_iff.trans readsComment_iff.symm
  have hclosing : (inOrder [.many fun _ => true, word "*/", .finish]).matchesFront =
      "*/".toList.isSuffixOf :=
    matchesFront_eq fun _ => matchesFront_closing_iff.trans List.isSuffixOf_iff_suffix.symm
  have hsignature : (inOrder [typedName, .many isBlank, word "("]).matchesFront = readsSignature :=
    matchesFront_eq fun _ => matchesFront_signature_iff.trans readsSignature_iff.symm
  have hdeclaration : (inOrder [typedName, .many isBlank,
      .either (word "=") (.one (· != '('))]).matchesFront = readsDeclaration :=
    matchesFront_eq fun _ => matchesFront_declaration_iff
  have hasm : ∀ bracket, bracket = '{' ∨ bracket = '(' →
      (asmPattern bracket).matchesFront = readsAsm bracket := fun bracket h =>
    matchesFront_eq fun _ => matchesFront_asmPattern_iff.trans (readsAsm_iff h).symm
  have hasmEnd : (inOrder [word "__endasm", .many isBlank, word ";"]).matchesFront = readsAsmEnd :=
    matchesFront_eq fun _ => matchesFront_asmEnd_iff.trans readsAsmEnd_iff.symm
  simp only [lineTable, readTable, List.map_cons, List.map_nil, hword, hif, hdirective, hinline,
    hclosing, hsignature, hdeclaration, hasm '{' (.inl rfl), hasm '(' (.inr rfl), hasmEnd]

/-- A trimmed text has the category that is read from left to right. -/
theorem categoryOf_eq_reading (text : List Char) : categoryOf text = reading text := by
  rw [reading, ← map_matchesFront_lineTable, List.find?_map, Option.map_map]
  rfl

end Rows

/-! ### Lines of code -/

/-- The categories of preprocessor lines and of comments. -/
def markCategories : List Category :=
  [.ifOpen, .ifClose, .directive, .lineComment, .inlineBlockComment, .blockCommentOpen,
   .blockCommentClose]

/-- What the category of a text says that is neither a preprocessor line nor a comment. -/
structure IsReadAs (text : List Char) (category : Option Category) : Prop where
  signature_iff : category = some .procedureSignature ↔ IsSignature text
  declaration_iff : ¬ IsSignature text → (category = some .variableDecl ↔ IsDeclaration text)
  asmBrace_iff : ¬ IsSignature text → ¬ IsDeclaration text →
    (category = some .asmBraceOpen ↔ IsAsm '{' text)
  asmParen_iff : ¬ IsSignature text → ¬ IsDeclaration text →
    (category = some .asmParenOpen ↔ IsAsm '(' text)
  asmFloor_iff : ¬ IsSignature text → ¬ IsDeclaration text → ¬ IsAsm '{' text → ¬ IsAsm '(' text →
    (category = some .asmFloorOpen ↔ IsAsmFloor text)
  asmEnd_iff : ¬ IsSignature text → ¬ IsDeclaration text → ¬ IsAsm '{' text → ¬ IsAsm '(' text →
    (category = some .asmFloorClose ↔ IsAsmEnd text)
  eq_none_iff : category = none ↔ ¬ IsSignature text ∧ ¬ IsDeclaration text ∧ ¬ IsAsm '{' text ∧
    ¬ IsAsm '(' text ∧ ¬ IsAsmFloor text ∧ ¬ IsAsmEnd text

section Code

variable {text : List Char}

/-- The tests of a text that is neither a preprocessor line nor a comment are those for code. -/
lemma reading_of_code (h : ∀ row ∈ lineTable, row.1 ∈ markCategories →
    row.2.matchesFront text = false) :
    reading text =
      if readsSignature text then some .procedureSignature
      else if readsDeclaration text then some .variableDecl
      else if readsAsm '{' text then some .asmBraceOpen
      else if readsAsm '(' text then some .asmParenOpen
      else if "__asm".toList.isPrefixOf text then some .asmFloorOpen
      else if readsAsmEnd text then some .asmFloorClose
      else none := by
  have htests : ∀ row ∈ readTable, row.1 ∈ markCategories → row.2 text = false := by
    rw [← map_matchesFront_lineTable, List.forall_mem_map]
    exact h
  have hmarks : (readTable.take 7).find? (fun row => row.2 text) = none := by
    rw [List.find?_eq_none]
    intro row hrow
    have hcategory : row.1 ∈ (readTable.take 7).map Prod.fst := List.mem_map_of_mem hrow
    rw [htests row (List.mem_of_mem_take hrow) hcategory]
    exact Bool.false_ne_true
  have hcode : readTable.drop 7 = [(.procedureSignature, readsSignature),
      (.variableDecl, readsDeclaration), (.asmBraceOpen, readsAsm '{'),
      (.asmParenOpen, readsAsm '('), (.asmFloorOpen, "__asm".toList.isPrefixOf),
      (.asmFloorClose, readsAsmEnd)] := rfl
  rw [reading, ← List.take_append_drop 7 readTable, List.find?_append, hmarks, Option.none_or,
    hcode]
  simp only [List.find?_cons, List.find?_nil]
  cases readsSignature text <;> cases readsDeclaration text <;> cases readsAsm '{' text <;>
    cases readsAsm '(' text <;> cases "__asm".toList.isPrefixOf text <;>
    cases readsAsmEnd text <;> rfl

/-- Of a text that is no signature, the test of declarations finds the declarations: an opening
bracket behind the name would make it a signature. -/
lemma readsDeclaration_iff_of_not_isSignature (h : ¬ IsSignature text) :
    readsDeclaration text = true ↔ IsDeclaration text := by
  rw [readsDeclaration_iff]
  constructor
  · rintro ⟨name, behind, hbegins, hlong | ⟨c, hc, -⟩⟩
    · exact ⟨name, behind, hbegins, .inl hlong⟩
    · exact ⟨name, behind, hbegins, .inr (List.ne_nil_of_mem (List.mem_of_head? hc))⟩
  · rintro ⟨name, behind, hbegins, hlong | hne⟩
    · exact ⟨name, behind, hbegins, .inl hlong⟩
    · obtain ⟨c, rest, rfl⟩ := List.exists_cons_of_ne_nil hne
      refine ⟨name, c :: rest, hbegins, .inr ⟨c, rfl, ?_⟩⟩
      rintro rfl
      exact h ⟨name, _, hbegins, [], rest, rfl, by simp⟩

/-- A text does not begin with both the word that opens and the one that ends a block of assembly
without a bracket. -/
lemma not_isAsmEnd_of_isAsmFloor (h : IsAsmFloor text) : ¬ IsAsmEnd text := by
  rintro ⟨gap, rest, rfl, -⟩
  obtain ⟨behind, hbehind⟩ := h
  have hthird := congrArg (·[2]?) hbehind
  exact absurd hthird (by simp)

/-- A text opens a block of assembly with one bracket. -/
lemma not_isAsm_paren_of_isAsm_brace (h : IsAsm '{' text) : ¬ IsAsm '(' text := by
  intro h'
  rw [← readsAsm_iff (.inl rfl), readsAsm, Option.any_eq_true] at h
  rw [← readsAsm_iff (.inr rfl), readsAsm, Option.any_eq_true] at h'
  obtain ⟨r, hr, hbrace⟩ := h
  obtain ⟨r', hr', hparen⟩ := h'
  obtain rfl := Option.some.inj (hr.symm.trans hr')
  rw [beq_iff_eq] at hbrace hparen
  exact absurd (hbrace.symm.trans hparen) (by decide)

/-- The reading of a text that is neither a preprocessor line nor a comment says what it is. -/
theorem isReadAs_reading (h : ∀ row ∈ lineTable, row.1 ∈ markCategories →
    row.2.matchesFront text = false) : IsReadAs text (reading text) := by
  have hbrace : readsAsm '{' text = true ↔ IsAsm '{' text := readsAsm_iff (.inl rfl)
  have hparen : readsAsm '(' text = true ↔ IsAsm '(' text := readsAsm_iff (.inr rfl)
  rw [reading_of_code h]
  by_cases hsignature : IsSignature text
  · rw [if_pos (readsSignature_iff.mpr hsignature)]
    constructor <;> simp [hsignature]
  · have hdeclaration := readsDeclaration_iff_of_not_isSignature hsignature
    rw [if_neg (mt readsSignature_iff.mp hsignature)]
    split_ifs with h₁ h₂ h₃ h₄ h₅
    · have hfound := hdeclaration.mp h₁
      constructor <;> simp [hsignature, hfound]
    · have hfound := hbrace.mp h₂
      have hother := not_isAsm_paren_of_isAsm_brace hfound
      rw [hdeclaration] at h₁
      constructor <;> simp [hsignature, h₁, hfound, hother]
    · have hfound := hparen.mp h₃
      rw [hdeclaration] at h₁
      rw [hbrace] at h₂
      constructor <;> simp [hsignature, h₁, h₂, hfound]
    · have hfound : IsAsmFloor text := List.isPrefixOf_iff_prefix.mp h₄
      have hother := not_isAsmEnd_of_isAsmFloor hfound
      rw [hdeclaration] at h₁
      rw [hbrace] at h₂
      rw [hparen] at h₃
      constructor <;> simp [hsignature, h₁, h₂, h₃, hfound, hother]
    · have hfound := readsAsmEnd_iff.mp h₅
      have hother : ¬ IsAsmFloor text := fun h => not_isAsmEnd_of_isAsmFloor h hfound
      rw [hdeclaration] at h₁
      rw [hbrace] at h₂
      rw [hparen] at h₃
      constructor <;> simp [hsignature, h₁, h₂, h₃, hfound, hother]
    · rw [hdeclaration] at h₁
      rw [hbrace] at h₂
      rw [hparen] at h₃
      rw [readsAsmEnd_iff] at h₅
      have hfloor : ¬ IsAsmFloor text := mt List.isPrefixOf_iff_prefix.mpr h₄
      constructor <;> simp [hsignature, h₁, h₂, h₃, hfloor, h₅]

end Code

/-- **A line is classified by reading its trimmed text from left to right.**  No run of blanks or of
word characters has to be given back.  A text that is matched by no row for preprocessor lines or
comments is a signature, a declaration, the opening of a block of assembly or the end of one, in
this order, as it begins with their parts, each as long as it can be; and it has no category if it
begins with none of them. -/
theorem classify_eq_reading_trim (line : String) :
    classify line = reading (trim line.toList) ∧
      ((∀ row ∈ lineTable, row.1 ∈ markCategories →
        row.2.matchesFront (trim line.toList) = false) →
          IsReadAs (trim line.toList) (classify line)) := by
  rw [classify, categoryOf_eq_reading]
  exact ⟨rfl, isReadAs_reading⟩

/-- Of two words for types with a tab between them, the second is the name of a declaration. -/
theorem classify_eq_reading_trim_of_two_types :
    let line := "  unsigned long\tlong "
    (∀ row ∈ lineTable, row.1 ∈ markCategories →
      row.2.matchesFront (trim line.toList) = false) ∧
    classify line = some .variableDecl ∧ ¬ IsSignature (trim line.toList) ∧
      IsDeclaration (trim line.toList) := by
  intro line
  have hmarks : ∀ row ∈ lineTable, row.1 ∈ markCategories →
      row.2.matchesFront (trim line.toList) = false := by
    decide +kernel
  have hcategory : classify line = some .variableDecl := by decide +kernel
  have hread := (classify_eq_reading_trim line).2 hmarks
  have hsignature : ¬ IsSignature (trim line.toList) := by
    rw [← hread.signature_iff, hcategory]
    decide
  exact ⟨hmarks, hcategory, hsignature, (hread.declaration_iff hsignature).mp hcategory⟩

end Line

end SectionLedger
