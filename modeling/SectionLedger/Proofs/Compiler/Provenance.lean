import Mathlib
import SectionLedger.Compiler.Program
import SectionLedger.Proofs.Compiler.Session
import SectionLedger.Proofs.Directory.Tree
import SectionLedger.Proofs.Directory.Writes

/-!
# Where a listing comes from

Whether a file compiled is told by its listing alone.  The listing is looked for by name when the
compiler has run, in a directory that the source was written into before.  So it is what the
compiler wrote (`Compiler.Lists`) only as long as its name leads to nothing else: neither to what is
there in any case, nor to the source (`Tool.ListingApart`).  Then no compiler has a listing that it
did not write; otherwise the compiler that does nothing has one (`Settings.forall_lists_iff`).
Nothing is taken for granted about what stands in the directory and around it.

Where the directory is a fresh one (`Directory.IsFresh`) and the names of the source and of the
listing are plain, the listing is apart exactly if their extensions differ
(`Tool.listingApart_iff`).
-/

namespace SectionLedger

/-! ### Compilers -/

/-- What a compiler does in a run: what it prints, and the files that it writes, in order, by paths
from the directory that it runs in. -/
structure CompilerRun where
  exit : ℕ := 0
  stdout : ByteArray := .empty
  stderr : ByteArray := .empty
  written : List (String × ByteArray) := []

/-- A compiler that is given its arguments and the directory that it runs in. -/
abbrev Compiler := List String → Directory → CompilerRun

/-- What is made of a run, with a listing or without one. -/
def CompilerRun.artifacts (run : CompilerRun) (listing : Option String) : Artifacts :=
  ⟨Text.readLenient run.stdout, Text.readLenient run.stderr, listing⟩

/-- A compiler as a program; files that cannot be written are left out. -/
def Compiler.program (compiler : Compiler) : Program := fun arguments d =>
  let run := compiler arguments d
  ⟨run.exit, run.stdout, run.stderr, d.writeAll run.written⟩

/-- The compiler that does nothing. -/
def Compiler.silent : Compiler := fun _ _ => {}

/-- The arguments that a compiler is run with. -/
def Request.arguments (request : Request) : List String :=
  "-S" :: request.options.arguments ++ [request.sourceName]

/-- The outcome of a compilation has the listing that the compiler wrote in a run, which it began in
a directory, and no other. -/
structure CompilerRun.Lists (run : CompilerRun) (d : Directory) (name : String)
    (outcome : Except CompileFault Artifacts) : Prop where
  /-- A listing is what the compiler wrote there last. -/
  written : ∀ a text, outcome = .ok a → a.listing = some text →
    ∃ content, d.LastWritten (d.pathOf name) run.written content ∧
      Text.readUtf8? content = some text
  /-- What the compiler wrote there last is the listing, if it is a text. -/
  listing : ∀ content text, d.LastWritten (d.pathOf name) run.written content →
    Text.readUtf8? content = some text → outcome = .ok (run.artifacts (some text))
  /-- Otherwise there is no outcome. -/
  notText : ∀ content, d.LastWritten (d.pathOf name) run.written content →
    Text.readUtf8? content = none → outcome = .error (.unreadable name .notText)
  /-- If the compiler wrote nothing there, there is no listing. -/
  unwritten : (∀ file ∈ run.written, d.Distinct file.1 (d.pathOf name)) →
    outcome = .ok (run.artifacts none)
  /-- The file does not compile exactly if the compiler wrote nothing there. -/
  doesNotCompile_iff : ∀ a, outcome = .ok a → ∀ diagnostics,
    (Status.ofOutcome a.listing.isSome diagnostics = .doesNotCompile ↔
      ∀ file ∈ run.written, d.Distinct file.1 (d.pathOf name))

/-- The outcome of a compilation in a directory has the listing that the compiler wrote, and no
other; where the source cannot be written, there is none. -/
structure Compiler.Lists (compiler : Compiler) (d : Directory) (request : Request) (source : String)
    (outcome : Except CompileFault Artifacts) : Prop where
  unwritable : ∀ fault, d.writeText (d.pathOf request.sourceName) source = .error fault →
    outcome = .error (.unwritable request.sourceName fault)
  run : ∀ d', d.writeText (d.pathOf request.sourceName) source = .ok d' →
    (compiler request.arguments d').Lists d' request.listingName outcome

namespace Program

variable {d d' : Directory} {path name : String} {content : ByteArray} {run : CompilerRun}
  {request : Request} {compiler : Compiler}

/-! ### The listing that is found -/

/-- There is no listing exactly if its path leads to nothing. -/
lemma listingIn_eq_ok_none_iff : listingIn d path name = .ok none ↔ d.has path = false := by
  unfold listingIn
  cases d.has path with
  | false => simp
  | true => cases d.readText path <;> simp

/-- A listing that can be read is there as a text, or is no text. -/
lemma listingIn_of_read (h : d.read path = .ok content) :
    listingIn d path name = match Text.readUtf8? content with
      | some text => .ok (some text)
      | none => .error (.unreadable name .notText) := by
  rw [listingIn, Directory.has_of_read h, if_pos rfl, Directory.readText, h]
  simp only [bind, Except.bind]
  cases Text.readUtf8? content <;> rfl

/-- What the compiler wrote last is found, where nothing was before. -/
lemma listingIn_of_lastWritten (h : d.has path = false)
    (hlast : d.LastWritten path run.written content) :
    listingIn (d.writeAll run.written) path name = match Text.readUtf8? content with
      | some text => .ok (some text)
      | none => .error (.unreadable name .notText) := by
  have hlasting : d.Lasting path := by
    obtain ⟨_, _, _, -, hhere, -⟩ := hlast
    obtain ⟨place, -, hplace⟩ := Directory.not_distinct_iff.mp hhere
    exact Directory.lasting_of_not_has h hplace
  exact listingIn_of_read (Directory.read_writeAll hlasting hlast)

/-- If the compiler wrote nothing there, nothing is found. -/
lemma listingIn_of_distinct (h : d.has path = false)
    (hdistinct : ∀ file ∈ run.written, d.Distinct file.1 path) :
    listingIn (d.writeAll run.written) path name = .ok none :=
  listingIn_eq_ok_none_iff.mpr ((Directory.has_writeAll hdistinct).trans h)

/-- A compilation with an outcome has the text that the compiler wrote last as its listing, or none
if it wrote nothing there. -/
lemma artifacts_cases (h : d.has path = false) {a : Artifacts}
    (hok : (listingIn (d.writeAll run.written) path name).map run.artifacts = .ok a) :
    (∃ content text, d.LastWritten path run.written content ∧
      Text.readUtf8? content = some text ∧ a = run.artifacts (some text)) ∨
    (∀ file ∈ run.written, d.Distinct file.1 path) ∧ a = run.artifacts none := by
  rcases d.exists_lastWritten_or_distinct path run.written with ⟨content, hlast⟩ | hdistinct
  · rw [listingIn_of_lastWritten h hlast] at hok
    cases htext : Text.readUtf8? content with
    | none =>
      rw [htext] at hok
      contradiction
    | some text =>
      rw [htext] at hok
      exact .inl ⟨content, text, hlast, htext, (Except.ok.inj hok).symm⟩
  · rw [listingIn_of_distinct h hdistinct] at hok
    exact .inr ⟨hdistinct, (Except.ok.inj hok).symm⟩

/-- What comes of running a compiler, but for the listing, is what it printed. -/
lemma compileIn_program (compiler : Compiler) (request : Request) (d : Directory) :
    compileIn compiler.program request d =
      (listingIn (d.writeAll (compiler request.arguments d).written)
        (d.pathOf request.listingName) request.listingName).map
          (compiler request.arguments d).artifacts := by
  change (do
    let listing ← listingIn (d.writeAll (compiler request.arguments d).written)
      (d.pathOf request.listingName) request.listingName
    return (compiler request.arguments d).artifacts listing) = _
  cases listingIn (d.writeAll (compiler request.arguments d).written)
    (d.pathOf request.listingName) request.listingName <;> rfl

/-- Where nothing is before the compiler is run, the listing is the one that it wrote. -/
lemma lists_of_not_has (h : d.has (d.pathOf request.listingName) = false) :
    (compiler request.arguments d).Lists d request.listingName
      (compileIn compiler.program request d) := by
  rw [compileIn_program]
  generalize compiler request.arguments d = run
  exact {
    written := by
      intro a text hok hlisting
      obtain ⟨content, t, hlast, htext, rfl⟩ | ⟨-, rfl⟩ := artifacts_cases h hok
      · exact ⟨content, hlast, htext.trans hlisting⟩
      · contradiction
    listing := by
      intro content text hlast htext
      rw [listingIn_of_lastWritten h hlast, htext]
      rfl
    notText := by
      intro content hlast htext
      rw [listingIn_of_lastWritten h hlast, htext]
      rfl
    unwritten := by
      intro hdistinct
      rw [listingIn_of_distinct h hdistinct]
      rfl
    doesNotCompile_iff := by
      intro a hok diagnostics
      rw [Status.ofOutcome_eq_doesNotCompile_iff]
      obtain ⟨content, t, hlast, -, rfl⟩ | ⟨hdistinct, rfl⟩ := artifacts_cases h hok
      · exact iff_of_false nofun hlast.not_forall_distinct
      · exact iff_of_true rfl hdistinct }

/-- If the compiler that does nothing has no listing, nothing is where the listing goes. -/
lemma not_has_of_silent {a : Artifacts} (hlisting : a.listing = none)
    (h : compileIn Compiler.silent.program request d = .ok a) :
    d.has (d.pathOf request.listingName) = false := by
  rw [compileIn_program] at h
  change (listingIn d (d.pathOf request.listingName) request.listingName).map _ = .ok a at h
  cases hfound : listingIn d (d.pathOf request.listingName) request.listingName with
  | error fault =>
    rw [hfound] at h
    contradiction
  | ok listing =>
    rw [hfound] at h
    obtain rfl := Except.ok.inj h
    obtain rfl : listing = none := hlisting
    exact listingIn_eq_ok_none_iff.mp hfound

/-- A program that can be run is run on the source in the directory that it has been written
into. -/
lemma backendIn_eq_compileIn {programs : Programs} {program : Program} {binary source : String}
    (hcheck : request.options.check = .ok ()) (hlookup : programs.lookup binary = some program)
    (hwrite : d.writeText (d.pathOf request.sourceName) source = .ok d') :
    backendIn d programs binary request source = compileIn program request d' := by
  simp only [backendIn, Backend.checked, hcheck, hwrite, hlookup]

/-- A source that cannot be written is not compiled. -/
lemma backendIn_eq_unwritable {programs : Programs} {binary source : String} {fault : FileFault}
    (hcheck : request.options.check = .ok ())
    (hwrite : d.writeText (d.pathOf request.sourceName) source = .error fault) :
    backendIn d programs binary request source =
      .error (.unwritable request.sourceName fault) := by
  simp only [backendIn, Backend.checked, hcheck, hwrite]

end Program

/-! ### Names that keep the listing apart -/

/-- The name of the listing leads, from the directory that a compiler is run in, neither to what is
there in any case nor to the source. -/
structure Tool.ListingApart (t : Tool) (d : Directory) : Prop where
  absent : d.has (d.pathOf t.listingName) = false
  distinct : d.Distinct (d.pathOf t.sourceName) (d.pathOf t.listingName)

/-- The paths of files in a directory do not change when a file is written. -/
lemma Directory.pathOf_of_write {d d' : Directory} {path : String} {content : ByteArray}
    (h : d.write path content = .ok d') (name : String) : d'.pathOf name = d.pathOf name := by
  rw [pathOf, pathOf, (keepsFolders_of_write h).home_eq]

/-- The listing is apart exactly if its name leads to nothing when the source has been written. -/
lemma Tool.has_listing_eq_false_iff {t : Tool} {d d' : Directory} {source : String}
    (hwrite : d.writeText (d.pathOf t.sourceName) source = .ok d') :
    d'.has (d'.pathOf t.listingName) = false ↔ t.ListingApart d := by
  rw [Directory.writeText] at hwrite
  rw [Directory.pathOf_of_write hwrite, ← Bool.not_eq_true, Directory.has_write_iff hwrite, not_or,
    Bool.not_eq_true, not_not]
  exact ⟨fun ⟨habsent, hdistinct⟩ => ⟨habsent, hdistinct⟩, fun h => ⟨h.absent, h.distinct⟩⟩

/-! ### Plain names -/

/-- A directory with nothing in it, whose own path leaves room for a name. -/
structure Directory.IsFresh (d : Directory) : Prop where
  isName : ∀ name ∈ d.home, Path.IsName name
  nothing : ∀ name, d.get? (d.home ++ [name]) = none
  short : (Path.ofPlace d.home).utf8ByteSize + 1 + Path.nameLimit ≤ Path.limit

/-- The directory that programs are run in is fresh. -/
lemma isFresh_scratch : (Directory.empty scratch).IsFresh where
  isName := by
    change ∀ name ∈ scratch, Path.IsName name
    decide
  nothing name := by simp [Directory.get?, Directory.empty, scratch, standard?]
  short := by decide +kernel

namespace Directory.IsFresh

variable {d d' : Directory} {name : String}

/-- A plain name leads to a place of its own. -/
lemma locateFile_pathOf (hd : d.IsFresh) (h : Path.IsName name) :
    d.locateFile (d.pathOf name) = .ok (d.home ++ [name]) := by
  have hpath : d.pathOf name = Path.joinPlace "/" (d.home ++ [name]) :=
    (Path.joinPlace_concat "/" d.home name).symm
  have hshort : ¬ Path.limit < (d.pathOf name).utf8ByteSize := by
    have hjoin := Path.utf8ByteSize_join_le (Path.ofPlace d.home) h
    have hname := h.short
    have hhome := hd.short
    rw [pathOf]
    omega
  have hnames : ∀ n ∈ d.home ++ [name], Path.IsName n :=
    List.forall_mem_append.mpr ⟨hd.isName, List.forall_mem_singleton.mpr h⟩
  have hfolders : ∀ n < (d.home ++ [name]).length,
      d.get? ([] ++ (d.home ++ [name]).take n) = some .folder := by
    intro n hn
    rw [List.nil_append, List.take_append_of_le_length (by simpa [Nat.lt_succ_iff] using hn)]
    exact get?_of_isPrefixOf (List.isPrefixOf_iff_prefix.mpr (List.take_prefix n d.home))
  have hlocate := locate_joinPlace d.locate_root hnames hfolders
  rw [← hpath, if_neg hshort, List.nil_append] at hlocate
  exact locateFile_eq_ok_iff.mpr ⟨Path.endsInSlash_join h, hlocate⟩

/-- Nothing has a plain name. -/
lemma has_pathOf (hd : d.IsFresh) (h : Path.IsName name) : d.has (d.pathOf name) = false := by
  rw [← Bool.not_eq_true, has_iff]
  rintro ⟨place, hlocate, hthere⟩
  obtain ⟨-, hlocate'⟩ := locateFile_eq_ok_iff.mp (hd.locateFile_pathOf h)
  obtain rfl := Except.ok.inj (hlocate'.symm.trans hlocate)
  simp [hd.nothing] at hthere

/-- A file of a plain name can be written, and lasts. -/
lemma lasting_pathOf (hd : d.IsFresh) (h : Path.IsName name) : d.Lasting (d.pathOf name) :=
  lasting_of_not_has (hd.has_pathOf h) (hd.locateFile_pathOf h)

/-- Files of two plain names are different files. -/
lemma distinct_pathOf_iff {other : String} (hd : d.IsFresh) (h : Path.IsName name)
    (hother : Path.IsName other) : d.Distinct (d.pathOf name) (d.pathOf other) ↔ name ≠ other := by
  simp [Distinct, hd.locateFile_pathOf h, hd.locateFile_pathOf hother, eq_comm]

/-- A compiler that names a file plainly writes it where the listing of that name is looked for,
whatever else has been written. -/
lemma not_distinct_pathOf (hd : d.IsFresh) (h : Path.IsName name) (hsame : d.SameFolders d') :
    ¬ d'.Distinct name (d'.pathOf name) := by
  rw [pathOf, hsame.kept.home_eq, ← pathOf, hsame.distinct_iff, not_distinct_iff]
  exact ⟨_, locateFile_of_isName h, hd.locateFile_pathOf h⟩

end Directory.IsFresh

/-- In a fresh directory, plain names keep the listing apart exactly if their extensions differ. -/
lemma Tool.listingApart_iff {t : Tool} {d : Directory} (hd : d.IsFresh)
    (hsource : Path.IsName t.sourceName) (hlisting : Path.IsName t.listingName) :
    t.ListingApart d ↔ t.sourceExtension ≠ t.listingExtension := by
  have hnames : t.sourceName ≠ t.listingName ↔ t.sourceExtension ≠ t.listingExtension := by
    simp [sourceName, listingName]
  have hdistinct := (hd.distinct_pathOf_iff hsource hlisting).trans hnames
  exact ⟨fun h => hdistinct.mp h.distinct, fun h => ⟨hd.has_pathOf hlisting, hdistinct.mpr h⟩⟩

/-! ### Compilations -/

/-- **A listing is what the compiler wrote, exactly if its name leads to nothing else.**  In any
directory, and with options that the tables know, every compiler has the listing that it wrote and
no other, unless the source can be written and the listing is not apart. -/
theorem Settings.forall_lists_iff (d : Directory) (s : Settings)
    (hcheck : s.options.check = .ok ()) :
    (∀ (compiler : Compiler) (programs : Programs) (source : String),
      programs.lookup s.tool.binary = some compiler.program →
        compiler.Lists d s.request source
          (Program.backendIn d programs s.tool.binary s.request source)) ↔
      (d.Writable (d.pathOf s.tool.sourceName) → s.tool.ListingApart d) := by
  constructor
  · intro hlists hwritable
    obtain ⟨d', hwrite⟩ : ∃ d', d.writeText (d.pathOf s.tool.sourceName) "" = .ok d' :=
      Directory.exists_write hwritable _
    -- the compiler that does nothing leaves the directory as it is
    let programs : Programs := [(s.tool.binary, Compiler.silent.program)]
    have hlookup : programs.lookup s.tool.binary = some Compiler.silent.program :=
      List.lookup_cons_self
    have hnone := ((hlists Compiler.silent programs "" hlookup).run d' hwrite).unwritten nofun
    have hrun : Program.backendIn d programs s.tool.binary s.request "" =
        Program.compileIn Compiler.silent.program s.request d' :=
      Program.backendIn_eq_compileIn hcheck hlookup hwrite
    rw [hrun] at hnone
    have hlisting : d'.has (d'.pathOf s.request.listingName) = false :=
      Program.not_has_of_silent rfl hnone
    exact (Tool.has_listing_eq_false_iff hwrite).mp hlisting
  · intro hapart compiler programs source hlookup
    refine ⟨fun fault hwrite => Program.backendIn_eq_unwritable hcheck hwrite, fun d' hwrite => ?_⟩
    have hrun : Program.backendIn d programs s.tool.binary s.request source =
        Program.compileIn compiler.program s.request d' :=
      Program.backendIn_eq_compileIn hcheck hlookup hwrite
    obtain ⟨place, hplace, hfolder, -⟩ := Directory.write_cases hwrite
    have hlisting : d'.has (d'.pathOf s.request.listingName) = false :=
      (Tool.has_listing_eq_false_iff hwrite).mpr (hapart ⟨place, hplace, hfolder⟩)
    rw [hrun]
    exact Program.lists_of_not_has hlisting

/-- With the names that are set by default, a compiler that writes a listing has it, and one that
writes none has none. -/
theorem Settings.forall_lists_iff_of_default :
    let s : Settings := {}
    let compiler : Compiler := fun _ _ => { written := [("source.asm", "; source.c: 1\n".toUTF8)] }
    s.options.check = .ok () ∧ s.tool.ListingApart (.empty scratch) ∧
      Program.backend [("sdcc", compiler.program)] s.tool.binary s.request "int x;\n" =
        .ok { listing := some "; source.c: 1\n" } ∧
      Program.backend [("sdcc", Compiler.silent.program)] s.tool.binary s.request "int x;\n" =
        .ok {} := by
  intro s compiler
  have hcheck : s.options.check = .ok () := Options.check_default
  have hsource : Path.IsName s.tool.sourceName := by decide
  have hlisting : Path.IsName s.tool.listingName := by decide
  have hapart : s.tool.ListingApart (.empty scratch) :=
    (Tool.listingApart_iff isFresh_scratch hsource hlisting).mpr (by decide)
  have hwritable := (isFresh_scratch.lasting_pathOf hsource).writable
  obtain ⟨d, hwrite⟩ := Directory.exists_write hwritable "int x;\n".toUTF8
  have hlast : d.LastWritten (d.pathOf s.request.listingName)
      (compiler s.request.arguments d).written "; source.c: 1\n".toUTF8 :=
    ⟨[], "source.asm", [], rfl,
      isFresh_scratch.not_distinct_pathOf hlisting (Directory.sameFolders_of_write hwrite), nofun⟩
  have hprinted : Text.readLenient .empty = "" := by decide +kernel
  have hlists := (Settings.forall_lists_iff (.empty scratch) s hcheck).mpr fun _ => hapart
  have hwritten := ((hlists compiler [("sdcc", compiler.program)] "int x;\n" rfl).run d
    hwrite).listing _ _ hlast (Text.readUtf8?_toUTF8 _)
  have hsilent := ((hlists Compiler.silent [("sdcc", Compiler.silent.program)] "int x;\n" rfl).run d
    hwrite).unwritten nofun
  refine ⟨hcheck, hapart, hwritten.trans ?_, hsilent.trans ?_⟩
  · simp only [CompilerRun.artifacts, compiler, hprinted]
  · simp only [CompilerRun.artifacts, Compiler.silent, hprinted]

/-- If the extensions of the source and of the listing are the same, the source is taken for the
listing of a compiler that writes none. -/
theorem Settings.listing_eq_source_of_same_extension :
    let s : Settings := { tool := { sourceExtension := ".asm" } }
    s.options.check = .ok () ∧ (∀ arguments d, (Compiler.silent arguments d).written = []) ∧
      Program.backend [("sdcc", Compiler.silent.program)] s.tool.binary s.request "int x;\n" =
        .ok { listing := some "int x;\n" } ∧
      Status.ofOutcome true (Diagnostic.ofOutput s.request.sourceName "") =
        .compiledWithoutWarnings := by
  intro s
  have hcheck : s.options.check = .ok () := Options.check_default
  have hname : Path.IsName s.request.listingName := by decide
  have hlasting := isFresh_scratch.lasting_pathOf hname
  obtain ⟨d, hwrite⟩ := Directory.exists_write hlasting.writable "int x;\n".toUTF8
  have hread : d.read (d.pathOf s.request.listingName) = .ok "int x;\n".toUTF8 := by
    rw [Directory.pathOf_of_write hwrite]
    exact hlasting.read_write hwrite
  have hrun : Program.backend [("sdcc", Compiler.silent.program)] s.tool.binary s.request
      "int x;\n" = Program.compileIn Compiler.silent.program s.request d :=
    Program.backendIn_eq_compileIn hcheck rfl hwrite
  have hfound : Program.listingIn d (d.pathOf s.request.listingName) s.request.listingName =
      .ok (some "int x;\n") := by
    rw [Program.listingIn_of_read hread, Text.readUtf8?_toUTF8]
  have hprinted : Text.readLenient .empty = "" := by decide +kernel
  refine ⟨hcheck, fun _ _ => rfl, ?_, by decide +kernel⟩
  rw [hrun, Program.compileIn_program]
  change (Program.listingIn d (d.pathOf s.request.listingName) s.request.listingName).map _ = _
  rw [hfound]
  change Except.ok _ = _
  simp only [CompilerRun.artifacts, Compiler.silent, hprinted]

end SectionLedger
